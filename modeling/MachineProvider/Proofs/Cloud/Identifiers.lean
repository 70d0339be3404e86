import MachineProvider.Proofs.Cloud.Effects

/-! Identifiers are given out once. -/
namespace MachineProvider.Cloud.Store

/-- The digits of an identifier tell its number; zeros in front count for nothing. -/
theorem identifier_injective : Function.Injective identifier := by
  have hdigits : ∀ n, ∃ k, (identifier n).toList =
      "uuid-".toList ++ (List.replicate k '0' ++ Nat.toDigits 10 n) := by
    intro n
    exact ⟨4 - (toString n).length, by
      simp [identifier, String.toList_append]⟩
  intro n m h
  obtain ⟨k, hn⟩ := hdigits n
  obtain ⟨l, hm⟩ := hdigits m
  have heq : List.replicate k '0' ++ Nat.toDigits 10 n =
      List.replicate l '0' ++ Nat.toDigits 10 m :=
    List.append_cancel_left (hn.symm.trans ((congrArg String.toList h).trans hm))
  have hread := congrArg (fun cs => Nat.ofDigitChars 10 cs 0) heq
  simpa [Nat.ofDigitChars_append, Nat.ofDigitChars_replicate_zero, Nat.ofDigitChars_ten_toDigits]
    using hread

/-- No identifier that is still to come names a server or a member of a group. -/
structure Unissued (s : Store) : Prop where
  servers : ∀ x ∈ s.servers, ∀ n, s.issued < n → x.uuid ≠ identifier n
  members : ∀ g ∈ s.groups, ∀ x ∈ g.servers, ∀ n, s.issued < n → x.uuid ≠ identifier n

/-- Under a new identifier there is the new server only. -/
theorem Unissued.find?_newborn {s t : Store} (hs : s.Unissued) (hservers : t.servers = s.servers)
    (hissued : s.issued ≤ t.issued) (request : ServerRequest) :
    (∀ y ∈ s.servers, y.uuid ≠ (t.newborn request).uuid) ∧
      (t.createServer request).2.servers.find? (·.uuid = (t.newborn request).uuid) =
        some (t.newborn request) := by
  have hnew : ∀ y ∈ s.servers, y.uuid ≠ (t.newborn request).uuid := fun y hy =>
    hs.servers y hy _ (Nat.lt_succ_of_le hissued)
  have hlist : (t.createServer request).2.servers = s.servers ++ [t.newborn request] := by
    rw [← hservers]
    rfl
  have hnone : s.servers.find? (·.uuid = (t.newborn request).uuid) = none :=
    List.find?_eq_none.2 fun y hy => by simpa using hnew y hy
  refine ⟨hnew, ?_⟩
  rw [hlist, List.find?_append, hnone]
  simp

end MachineProvider.Cloud.Store
