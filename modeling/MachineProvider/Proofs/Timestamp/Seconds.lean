import MachineProvider.Proofs.Timestamp.Reading

/-! Whatever is read as a point in time is read again from its text, cut to the whole second. -/
namespace MachineProvider.Timestamp

variable {α β : Type} {low high n width : Nat} {cs ds rest : List Char} {t : Timestamp}

theorem bind_eq_ok {x : Except Error α} {f : α → Except Error β} {b : β} :
    (x >>= f) = .ok b ↔ ∃ a, x = .ok a ∧ f a = .ok b := by
  cases x <;> simp [bind, Except.bind]

theorem ite_bind_eq_ok {c : Prop} [Decidable c] {x y : Except Error α} {f : α → Except Error β}
    {b : β} : (if c then x >>= f else y >>= f) = .ok b ↔
      ∃ a, (if c then x else y) = .ok a ∧ f a = .ok b := by
  split <;> exact bind_eq_ok

theorem ite_eq_ok {c : Prop} [Decidable c] {x y : Except Error α} {a : α}
    (h : (if c then x else y) = .ok a) : c ∧ x = .ok a ∨ ¬ c ∧ y = .ok a := by
  split at h
  · exact .inl ⟨‹_›, h⟩
  · exact .inr ⟨‹_›, h⟩

theorem throw_ne_ok {e : Error} {f : PUnit → Except Error β} {b : β} :
    (throw e >>= f : Except Error β) ≠ .ok b := by
  intro h
  change Except.error e = .ok b at h
  cases h

/-- The point in time without its part of a second; a leap second stays one. -/
def toSecond (t : Timestamp) : Timestamp :=
  ⟨t.seconds, t.nanoseconds / 1000000000 * 1000000000⟩

theorem text_toSecond (t : Timestamp) : t.toSecond.text = t.text := by
  have hsame : t.nanoseconds / 1000000000 * 1000000000 / 1000000000 = t.nanoseconds / 1000000000 :=
    Nat.mul_div_cancel _ (by decide)
  simp only [text, toSecond, hsame]

theorem foldl_digits_lt (hds : ∀ c ∈ ds, c.isDigit = true) :
    ds.foldl (fun n d => n * 10 + (d.toNat - 48)) n < (n + 1) * Nat.pow 10 ds.length := by
  induction ds generalizing n with
  | nil => simp
  | cons d ds ih =>
    have hd : d.toNat - 48 ≤ 9 := by
      have hdigit := hds d List.mem_cons_self
      simp only [Char.isDigit, Bool.and_eq_true, decide_eq_true_eq] at hdigit
      have hle : d.toNat ≤ 57 := hdigit.2
      omega
    calc ds.foldl (fun n d => n * 10 + (d.toNat - 48)) (n * 10 + (d.toNat - 48))
        < (n * 10 + (d.toNat - 48) + 1) * Nat.pow 10 ds.length :=
          ih fun c hc => hds c (List.mem_cons_of_mem _ hc)
      _ ≤ ((n + 1) * 10) * Nat.pow 10 ds.length := Nat.mul_le_mul_right _ (by omega)
      _ = (n + 1) * Nat.pow 10 (d :: ds).length := by
        rw [Nat.mul_assoc, Nat.mul_comm 10]
        rfl

/-- A number is below the power of ten of as many digits as it takes off. -/
theorem number_lt (h : number width cs = .ok (n, rest)) :
    ∃ k, k ≤ width ∧ rest.length + k = cs.length ∧ n < Nat.pow 10 k := by
  unfold number at h
  split at h
  · cases h
  · next c cs =>
    split at h
    · cases h
    · obtain ⟨ds, hds⟩ : ∃ ds, ds = ((c :: cs).take width).takeWhile Char.isDigit := ⟨_, rfl⟩
      rw [← hds] at h
      obtain ⟨rfl, rfl⟩ := Prod.mk.inj (Except.ok.inj h)
      have hprefix : ds.length ≤ ((c :: cs).take width).length :=
        hds ▸ (List.takeWhile_prefix _).length_le
      have hdigits : ∀ d ∈ ds, d.isDigit = true := fun d hd =>
        (List.all_eq_true.1 List.all_takeWhile) d (hds ▸ hd)
      rw [List.length_take] at hprefix
      refine ⟨ds.length, by omega, ?_, by simpa using foldl_digits_lt (n := 0) hdigits⟩
      rw [List.length_drop]
      omega

theorem field_range (h : field low high cs = .ok (n, rest)) : low ≤ n ∧ n ≤ high := by
  unfold field inRange at h
  obtain ⟨⟨m, rest'⟩, -, h⟩ := bind_eq_ok.1 h
  simp only at h
  split at h
  · next hrange =>
    obtain ⟨rfl, -⟩ := Prod.mk.inj (Except.ok.inj h)
    exact hrange
  · cases h

theorem fraction_lt (h : fraction cs = .ok (n, rest)) : n < 1000000000 := by
  unfold fraction at h
  split at h
  · next cs =>
    obtain ⟨⟨m, after⟩, hread, h⟩ := bind_eq_ok.1 h
    obtain ⟨k, hk, hlen, hm⟩ := number_lt hread
    obtain ⟨rfl, -⟩ := Prod.mk.inj (Except.ok.inj h)
    have hwidth : cs.length - after.length = k := by omega
    rw [hwidth]
    calc m * Nat.pow 10 (9 - k) < Nat.pow 10 k * Nat.pow 10 (9 - k) :=
          Nat.mul_lt_mul_of_pos_right hm (Nat.pow_pos (by decide))
      _ = Nat.pow 10 9 := (Nat.pow_add 10 k (9 - k)).symm.trans (by rw [Nat.add_sub_cancel' hk])
  · obtain ⟨rfl, -⟩ := Prod.mk.inj (Except.ok.inj h)
    exact Nat.zero_lt_succ _

theorem signedOffset_minutes (h : signedOffset cs = .ok (n, rest)) : n % 60 = 0 := by
  unfold signedOffset at h
  simp only [bind, Except.bind] at h
  split at h
  · split at h
    · split at h
      · split at h
        · split at h
          · obtain ⟨rfl, -⟩ := Prod.mk.inj (Except.ok.inj h)
            omega
          · cases h
        · cases h
      · split at h <;> cases h
      · cases h
    · cases h
  · split at h <;> cases h
  · cases h

/-- An offset is a number of whole minutes. -/
theorem offset_minutes {east : Int} (h : offset cs = .ok (east, rest)) : east % 60 = 0 := by
  have hsigned : ∀ {cs : List Char} {f : Nat → Int}, (∀ n, f n = n ∨ f n = -(n : Int)) →
      (signedOffset cs).map (fun p => (f p.1, p.2)) = .ok (east, rest) → east % 60 = 0 := by
    intro cs f hf h
    cases hread : signedOffset cs with
    | error e => simp [hread, Except.map] at h
    | ok p =>
      obtain ⟨n, rest'⟩ := p
      have hn := signedOffset_minutes hread
      rw [hread] at h
      obtain ⟨rfl, -⟩ := Prod.mk.inj (Except.ok.inj h)
      rcases hf n with hf | hf <;> simp only [hf] <;> omega
  unfold offset at h
  split at h
  · obtain ⟨rfl, -⟩ := Prod.mk.inj (Except.ok.inj h)
    rfl
  · obtain ⟨rfl, -⟩ := Prod.mk.inj (Except.ok.inj h)
    rfl
  · exact hsigned (fun _ => .inl rfl) h
  · exact hsigned (fun _ => .inr rfl) h
  · exact hsigned (fun _ => .inr rfl) h
  · cases h
  · cases h

/-- A time that was read has a date, and is a leap second only at the end of a minute. -/
theorem wholeSecond_of_parse {text : String} (h : parse text = .ok t) : t.toSecond.WholeSecond := by
  obtain ⟨⟨y, cs⟩, -, h⟩ := bind_eq_ok.1 h
  obtain ⟨cs, -, h⟩ := bind_eq_ok.1 h
  obtain ⟨⟨month, cs⟩, -, h⟩ := bind_eq_ok.1 h
  obtain ⟨cs, -, h⟩ := bind_eq_ok.1 h
  obtain ⟨⟨day, cs⟩, -, h⟩ := bind_eq_ok.1 h
  cases cs with
  | nil => cases h
  | cons c cs =>
  obtain ⟨cs, -, h⟩ := ite_bind_eq_ok.1 h
  obtain ⟨⟨hour, cs⟩, -, h⟩ := bind_eq_ok.1 h
  obtain ⟨cs, -, h⟩ := bind_eq_ok.1 h
  obtain ⟨⟨minute, cs⟩, -, h⟩ := bind_eq_ok.1 h
  obtain ⟨cs, -, h⟩ := bind_eq_ok.1 h
  obtain ⟨⟨second, cs⟩, hsecond, h⟩ := bind_eq_ok.1 h
  obtain ⟨⟨nanos, cs⟩, hnanos, h⟩ := bind_eq_ok.1 h
  obtain ⟨⟨east, cs⟩, heast, h⟩ := ite_bind_eq_ok.1 h
  have heast : east % 60 = 0 := by
    split at heast
    · obtain ⟨rfl, -⟩ := Prod.mk.inj (Except.ok.inj heast)
      rfl
    · exact offset_minutes heast
  obtain ⟨-, h⟩ := (ite_eq_ok h).resolve_right fun h => throw_ne_ok h.2
  obtain ⟨-, h⟩ := (ite_eq_ok h).resolve_left fun h => throw_ne_ok h.2
  obtain ⟨hpossible, h⟩ := (ite_eq_ok h).resolve_left fun h => throw_ne_ok h.2
  obtain rfl := Except.ok.inj h
  have hsecond := (field_range hsecond).2
  have hnanos := fraction_lt hnanos
  refine ⟨Int.not_lt.1 fun h => hpossible (.inl h), Int.not_le.1 fun h => hpossible (.inr h), ?_⟩
  -- Only a leap second has a thousand million nanoseconds, and it stands behind second 59.
  by_cases hleap : second = 60
  · right
    simp only [toSecond, hleap, if_true]
    omega
  · left
    simp only [toSecond, hleap, if_false]
    omega

/-- A time that was read is read again from its text, without its part of a second. -/
theorem parse_text_toSecond {text : String} (h : parse text = .ok t) :
    parse t.text = .ok t.toSecond := by
  rw [← text_toSecond]
  exact parse_text (wholeSecond_of_parse h)

end MachineProvider.Timestamp
