import MachineProvider.Json.Decode
import MachineProvider.Proofs.Json.Canonical

/-! What a record reads from an object, field by field and without positions. -/
namespace MachineProvider.Json

open Entries (find?)

variable {α β : Type} {ms : Entries Json} {name : String} {source : Source} {p : Nat}

theorem mapError_eq_ok {ε ε' : Type} {r : Except ε α} {f : ε → ε'} {a : α} :
    r.mapError f = .ok a ↔ r = .ok a := by
  cases r with
  | ok b => exact ⟨fun h => congrArg _ (Except.ok.inj h), fun h => congrArg _ (Except.ok.inj h)⟩
  | error e => exact ⟨by rintro ⟨⟩, by rintro ⟨⟩⟩

namespace Fields

/-- A field of an object has a value, or stands for its absence. -/
def Holds (name : String) (decode : Decoder α) (absent : Option α) (ms : Entries Json) (a : α) :
    Prop :=
  match find? name ms with
  | some v => decode v = .ok a
  | none => absent = some a

theorem lookup_eq (hn : (ms.map (·.1)).Nodup) (i : Nat) :
    (lookup name ms i).map (·.2) = find? name ms := by
  induction ms generalizing i with
  | nil => rfl
  | cons m ms ih =>
    obtain ⟨k, v⟩ := m
    obtain ⟨hk, hms⟩ := List.nodup_cons.1 hn
    have hrest := ih hms (i + 1)
    by_cases hkn : k = name
    · subst hkn
      have hnone : find? k ms = none :=
        Entries.find?_eq_none.2 fun e he heq => hk (List.mem_map.2 ⟨e, he, heq⟩)
      rw [hnone, Option.map_eq_none_iff] at hrest
      simp [lookup, hrest]
    · cases hl : lookup name ms (i + 1) <;> simp_all [lookup]

theorem read_single_of_nodup (hn : (ms.map (·.1)).Nodup) {decode : Decoder α}
    {unnamed missing : Option α} {a : α} :
    (single name decode unnamed missing).read (.members ms) p = .ok a ↔
      Holds name decode unnamed ms a := by
  have hl : (lookup name ms 0).map (·.2) = find? name ms := lookup_eq hn 0
  unfold Holds single
  cases hf : find? name ms with
  | none =>
    rw [hf, Option.map_eq_none_iff] at hl
    simp only [hl]
    cases unnamed <;> simp
  | some v =>
    rw [hf, Option.map_eq_some_iff] at hl
    obtain ⟨⟨i, u⟩, hl, rfl⟩ := hl
    simp only [hl]
    exact mapError_eq_ok

theorem read_single (ho : ms.Ordered) {decode : Decoder α} {unnamed missing : Option α} {a : α} :
    (single name decode unnamed missing).read (.members ms) p = .ok a ↔
      Holds name decode unnamed ms a := read_single_of_nodup ho.nodup

theorem read_seq {f : Fields (α → β)} {x : Fields α} {P : β → Prop} :
    (∃ b, (f <*> x).read source p = .ok b ∧ P b) ↔
      ∃ g, f.read source p = .ok g ∧ ∃ a, x.read source (p + f.names.length) = .ok a ∧ P (g a) := by
  change (∃ b, (seq f x).read source p = .ok b ∧ P b) ↔ _
  simp only [seq]
  cases f.read source p <;> cases x.read source (p + f.names.length) <;> simp

theorem read_map {f : α → β} {x : Fields α} {P : β → Prop} :
    (∃ b, (f <$> x).read source p = .ok b ∧ P b) ↔ ∃ a, x.read source p = .ok a ∧ P (f a) := by
  change (∃ b, (seq (pure f) x).read source p = .ok b ∧ P b) ↔ _
  simp only [seq, pure, List.length_nil, Nat.add_zero]
  cases x.read source p <;> simp

theorem named_object {fields : Fields α} {a : α} :
    named name fields (.object ms) = .ok a ↔
      ∃ b, fields.read (.members ms) 0 = .ok b ∧ b = a := by
  simp only [named]
  cases fields.read (.members ms) 0 with
  | ok b => simp
  | error e => obtain ⟨_, _ | _⟩ := e <;> simp

theorem occurrences_le_one (hn : (ms.map (·.1)).Nodup) : occurrences name ms ≤ 1 := by
  have hcount : occurrences name ms = (ms.map (·.1)).count name := by
    simp only [occurrences, List.count, List.countP_map]
    rfl
  exact hcount ▸ List.nodup_iff_count.1 hn name

theorem record_object_of_nodup (hn : (ms.map (·.1)).Nodup) {fields : Fields α} {a : α} :
    record name fields (.object ms) = .ok a ↔
      ∃ b, fields.read (.members ms) 0 = .ok b ∧ b = a := by
  have hnone : fields.names.find? (fun n => 1 < occurrences n ms) = none := by
    simp [Nat.not_lt.2 (occurrences_le_one hn)]
  simp only [record, hnone]
  cases fields.read (.members ms) 0 with
  | ok b => simp
  | error e => obtain ⟨_, _ | _⟩ := e <;> simp

theorem record_object (ho : ms.Ordered) {fields : Fields α} {a : α} :
    record name fields (.object ms) = .ok a ↔
      ∃ b, fields.read (.members ms) 0 = .ok b ∧ b = a := record_object_of_nodup ho.nodup

/-- Only an object is read by `named`. -/
theorem object_of_named {fields : Fields α} {v : Json} {a : α} (h : named name fields v = .ok a) :
    ∃ ms, v = .object ms := by
  cases v <;> simp_all [named]

end Fields

namespace Decoder

theorem nullable_eq {decode : Decoder α} {v : Json} {o : Option α} :
    nullable decode v = .ok o ↔
      (v = .null ∧ o = none) ∨ (v ≠ .null ∧ ∃ a, decode v = .ok a ∧ o = some a) := by
  cases v with
  | null => simp [nullable, eq_comm]
  | _ =>
    simp only [nullable]
    cases decode _ <;> simp [Except.map, eq_comm]

theorem text_eq {v : Json} {s : String} : text v = .ok s ↔ v = .string s := by
  cases v <;> simp [text]

theorem eachMember_cons {decode : Decoder α} {k : String} {v : Json} {ps : List (String × α)} :
    eachMember decode ((k, v) :: ms) = .ok ps ↔
      ∃ a, decode v = .ok a ∧ ∃ qs, eachMember decode ms = .ok qs ∧ (k, a) :: qs = ps := by
  simp only [eachMember]
  cases decode v <;> cases eachMember decode ms <;> simp [bind, Except.bind, pure, Except.pure]

theorem eachMember_text {ps : List (String × String)} :
    eachMember text ms = .ok ps ↔ ms = ps.map fun p => (p.1, .string p.2) := by
  induction ms generalizing ps with
  | nil => cases ps <;> simp [eachMember]
  | cons m ms ih =>
    obtain ⟨k, v⟩ := m
    rw [eachMember_cons]
    constructor
    · rintro ⟨s, hs, qs, hqs, rfl⟩
      rw [text_eq.1 hs, ih.1 hqs]
      rfl
    · intro h
      cases ps with
      | nil => simp at h
      | cons q qs =>
        obtain ⟨⟨rfl, rfl⟩, hqs⟩ := List.cons_eq_cons.1 h
        exact ⟨q.2, rfl, qs, ih.2 hqs, rfl⟩

/-- A map of texts is read from exactly one object in key order. -/
theorem map_text_object (ho : ms.Ordered) {m : StringMap String} :
    map text (.object ms) = .ok m ↔ Json.object ms = .ofStrings m := by
  have hord : ∀ ps : List (String × String), ms = ps.map (fun p => (p.1, Json.string p.2)) →
      Entries.Ordered ps := by
    rintro ps rfl
    simpa [Entries.Ordered, List.pairwise_map] using ho
  change (eachMember text ms).map StringMap.ofList = _ ↔ Json.object ms = .object _
  constructor
  · intro h
    cases hr : eachMember text ms with
    | error e => simp [hr, Except.map] at h
    | ok ps =>
      have hps := eachMember_text.1 hr
      obtain rfl : StringMap.ofList ps = m := by simpa [hr, Except.map] using h
      change Json.object ms = .object ((Entries.ofList ps).map _)
      rw [(hord ps hps).ofList_eq, hps]
  · intro h
    have hps : ms = m.entries.map fun p => (p.1, .string p.2) := Json.object.inj h
    rw [eachMember_text.2 hps]
    refine congrArg Except.ok (StringMap.ext_get? fun k => ?_)
    exact Entries.find?_ofList_of_nodup m.ordered.nodup

theorem map_text_ofStrings (m : StringMap String) : map text (.ofStrings m) = .ok m :=
  (map_text_object (m.map Json.string).ordered).2 rfl

theorem each_map_of_mem {encode : α → Json} {decode : Decoder α} {as : List α}
    (h : ∀ a ∈ as, decode (encode a) = .ok a) : each decode (as.map encode) = .ok as := by
  induction as with
  | nil => rfl
  | cons a as ih =>
    obtain ⟨ha, has⟩ := List.forall_mem_cons.1 h
    simp [each, ha, ih has, bind, Except.bind, pure, Except.pure]

theorem each_map {encode : α → Json} {decode : Decoder α}
    (h : ∀ a, decode (encode a) = .ok a) (as : List α) :
    each decode (as.map encode) = .ok as := each_map_of_mem fun a _ => h a

end Decoder

namespace Fields

theorem Holds.of_find? {decode : Decoder α} {absent : Option (Option α)} {v : Json} {a : α}
    (hf : find? name ms = some v) (hv : v ≠ .null) (hd : decode v = .ok a) :
    Holds name (Decoder.nullable decode) absent ms (some a) := by
  unfold Holds
  rw [hf]
  exact Decoder.nullable_eq.2 (.inr ⟨hv, a, hd, rfl⟩)

/-- What stands in the document under a field that may be missing or null. -/
theorem Holds.raw {decode : Decoder α} {encode : α → Json} {o : Option α}
    (h : Holds name (Decoder.nullable decode) (some none) ms o)
    (hraw : ∀ v a, find? name ms = some v → decode v = .ok a → v = encode a) :
    find? name ms = o.map encode ∨ find? name ms = some .null ∧ o = none := by
  unfold Holds at h
  cases hf : find? name ms with
  | none =>
    rw [hf] at h
    obtain rfl : none = o := Option.some.inj h
    exact .inl rfl
  | some v =>
    rw [hf] at h
    rcases Decoder.nullable_eq.1 h with ⟨rfl, rfl⟩ | ⟨-, a, ha, rfl⟩
    · exact .inr ⟨rfl, rfl⟩
    · exact .inl (congrArg some (hraw v a hf ha))

theorem Holds.raw_text {o : Option String}
    (h : Holds name (Decoder.nullable .text) (some none) ms o) :
    find? name ms = o.map .string ∨ find? name ms = some .null ∧ o.map Json.string = none := by
  simpa using h.raw fun v s _ hv => Decoder.text_eq.1 hv

theorem Holds.raw_texts {o : Option (StringMap String)} (hc : (Json.object ms).Canonical)
    (h : Holds name (Decoder.nullable (.map .text)) (some none) ms o) :
    find? name ms = o.map .ofStrings ∨ find? name ms = some .null ∧ o.map ofStrings = none := by
  have hraw := h.raw fun v m hf hv => show v = ofStrings m by
    have hcan := canonical_of_find? hc hf
    cases v with
    | object vs => exact (Decoder.map_text_object hcan.ordered).1 hv
    | _ => simp [Decoder.map] at hv
  simpa using hraw

theorem Holds.raw_any {o : Option Json} (hc : (Json.object ms).Canonical)
    (h : Holds name (Decoder.nullable .any) (some none) ms o) :
    find? name ms = o ∨ find? name ms = some .null ∧ o = none := by
  have hraw := h.raw fun v w hf hv => show v = id w from
    (canonical_of_find? hc hf).canonical_eq.symm.trans (Except.ok.inj hv)
  simpa using hraw

end Fields

end MachineProvider.Json
