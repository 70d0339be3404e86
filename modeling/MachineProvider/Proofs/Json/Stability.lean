import MachineProvider.Proofs.Json.Reading
import MachineProvider.Proofs.Json.Shape

/-!
What a decoder can return, and how much of it is read back from its own encoding. A record is
followed from whatever it was read from, an object or an array, to the object it is written as.
-/
namespace MachineProvider.Json

open Entries (find?)

variable {α β : Type} {decode : Decoder α} {encode : α → Json} {settle : α → α} {name : String}
  {source : Source} {p : Nat} {v : Json} {a : α} {o : Option α} {ms es : Entries Json}

/-! ### Where a record is read from -/

/-- What stands under a name or at a position; of repeated members the last one. -/
def Source.slot (name : String) (position : Nat) : Source → Option Json
  | .members ms => find? name ms.reverse
  | .elements vs => vs[position]?

/-- What stands for a field without a slot. -/
def Source.absent (unnamed missing : Option α) : Source → Option α
  | .members _ => unnamed
  | .elements _ => missing

/-- What the fields of a document are read from, if it can be a record. -/
def source? : Json → Option Source
  | object ms => some (.members ms)
  | array vs => some (.elements vs)
  | _ => none

/-- The slot of a field in a document. -/
def slot (name : String) (position : Nat) (v : Json) : Option Json :=
  v.source?.bind (·.slot name position)

/-- What stands behind several slots, one inside the other. -/
def reach : List (String × Nat) → Json → Option Json
  | [], v => some v
  | (name, position) :: slots, v => (v.slot name position).bind (reach slots)

theorem reach_slot : v.reach [(name, p)] = v.slot name p := by
  cases h : v.slot name p <;> simp [reach, h]

/-- What is left of an opaque document: null becomes absent, everything else stays. -/
def kept (o : Option Json) : Option Json := (o.filter fun v => !v.isNull).map canonical

namespace Fields

/-- A field has the value of its slot, or stands for its absence. -/
def Fits (decode : Decoder α) (absent : Option α) (slot : Option Json) (a : α) : Prop :=
  match slot with
  | some v => decode v = .ok a
  | none => absent = some a

theorem fits_some {absent : Option α} : Fits decode absent (some v) a ↔ decode v = .ok a := Iff.rfl

theorem lookup_eq_reverse (i : Nat) : (lookup name ms i).map (·.2) = find? name ms.reverse := by
  induction ms generalizing i with
  | nil => rfl
  | cons m ms ih =>
    obtain ⟨k, v⟩ := m
    have hrest := ih (i + 1)
    rw [List.reverse_cons, Entries.find?_append, ← hrest]
    cases hl : lookup name ms (i + 1) with
    | some found => simp [lookup, hl]
    | none => by_cases hk : k = name <;> simp [lookup, hl, hk]

theorem read_slot {unnamed missing : Option α} :
    (single name decode unnamed missing).read source p = .ok a ↔
      Fits decode (source.absent unnamed missing) (source.slot name p) a := by
  unfold Fits
  cases source with
  | members ms =>
    have hslot : (lookup name ms 0).map (·.2) = (Source.members ms).slot name p :=
      lookup_eq_reverse 0
    simp only [single, Source.absent, ← hslot]
    cases lookup name ms 0 with
    | none => cases unnamed <;> simp
    | some found => exact mapError_eq_ok
  | elements vs =>
    simp only [single, Source.slot, Source.absent]
    cases vs[p]? with
    | none => cases missing <;> simp
    | some v => exact mapError_eq_ok

theorem read_required : (required name decode).read source p = .ok a ↔
    Fits decode none (source.slot name p) a := by
  rw [required, read_slot]
  cases source <;> rfl

theorem read_optional {absent : α} : (optional name decode absent).read source p = .ok a ↔
    Fits decode (some absent) (source.slot name p) a := by
  rw [optional, read_slot]
  cases source <;> rfl

theorem read_nullable : (nullable name decode).read source p = .ok o ↔
    Fits (Decoder.nullable decode) (some none) (source.slot name p) o := read_optional

theorem read_of_record {fields : Fields α} (h : record name fields v = .ok a) :
    ∃ source, v.source? = some source ∧ ∃ b, fields.read source 0 = .ok b ∧ b = a := by
  cases v with
  | object ms =>
    refine ⟨.members ms, rfl, a, ?_, rfl⟩
    simp only [record] at h
    split at h
    · cases h
    · split at h <;> simp_all
  | array vs =>
    refine ⟨.elements vs, rfl, a, ?_, rfl⟩
    simp only [record] at h
    split at h
    · split at h <;> simp_all
    · cases h
    · cases h
  | _ => cases h

theorem read_of_named {fields : Fields α} (h : named name fields v = .ok a) :
    ∃ source, ∃ b, fields.read source 0 = .ok b ∧ b = a := by
  obtain ⟨ms, rfl⟩ := object_of_named h
  exact ⟨.members ms, named_object.1 h⟩

theorem Fits.kept {o u : Option Json} (h : Fits (Decoder.nullable .any) (some none) o u) :
    u = Json.kept o := by
  cases o with
  | none => exact (Option.some.inj h).symm
  | some v =>
    rcases Decoder.nullable_eq.1 h with ⟨rfl, rfl⟩ | ⟨hv, w, hw, rfl⟩
    · rfl
    · obtain rfl := Except.ok.inj hw
      cases v <;> first | rfl | exact absurd rfl hv

/-- A part of a field that is absent with it, or is kept from further slots within. -/
theorem Fits.kept_reach {absent : Option α} {f : α → Option Json} {slots : List (String × Nat)}
    (h : Fits decode absent (source.slot name p) a) (hsource : v.source? = some source)
    (hnone : absent = some a → f a = none)
    (hsome : ∀ u, decode u = .ok a → f a = Json.kept (u.reach slots)) :
    f a = Json.kept (v.reach ((name, p) :: slots)) := by
  have hreach : v.reach ((name, p) :: slots) = (source.slot name p).bind (Json.reach slots) := by
    rw [reach, slot, hsource, Option.bind_some]
  rw [hreach]
  cases hslot : source.slot name p with
  | none =>
    rw [hslot] at h
    exact hnone h
  | some u =>
    rw [hslot] at h
    exact hsome u h

end Fields

/-! ### What can be read -/

namespace Decoder

/-- What a decoder can return. -/
def Readable (decode : Decoder α) (a : α) : Prop := ∃ v, decode v = .ok a

theorem readable_nullable (h : (nullable decode).Readable (some a)) : decode.Readable a := by
  obtain ⟨v, h⟩ := h
  rcases nullable_eq.1 h with ⟨-, h⟩ | ⟨-, b, hb, h⟩
  · cases h
  · obtain rfl := Option.some.inj h
    exact ⟨v, hb⟩

theorem each_cons {vs : List Json} {as : List α} :
    each decode (v :: vs) = .ok as ↔
      ∃ a, decode v = .ok a ∧ ∃ bs, each decode vs = .ok bs ∧ a :: bs = as := by
  simp only [each]
  cases decode v <;> cases each decode vs <;> simp [bind, Except.bind, pure, Except.pure]

theorem readable_each {vs : List Json} {as : List α} (h : each decode vs = .ok as) :
    ∀ a ∈ as, decode.Readable a := by
  induction vs generalizing as with
  | nil =>
    obtain rfl := Except.ok.inj h
    simp
  | cons v vs ih =>
    obtain ⟨a, ha, bs, hbs, rfl⟩ := each_cons.1 h
    exact List.forall_mem_cons.2 ⟨⟨v, ha⟩, ih hbs⟩

theorem readable_list {as : List α} (h : (list decode).Readable as) :
    ∀ a ∈ as, decode.Readable a := by
  obtain ⟨v, h⟩ := h
  cases v with
  | array vs => exact readable_each h
  | _ => cases h

theorem readable_any {u : Json} (h : (nullable any).Readable (some u)) :
    u ≠ .null ∧ u.Canonical := by
  obtain ⟨v, h⟩ := h
  rcases nullable_eq.1 h with ⟨-, h⟩ | ⟨hv, w, hw, h⟩
  · cases h
  · obtain rfl := Option.some.inj h
    obtain rfl := Except.ok.inj hw
    refine ⟨?_, canonical_canonical v⟩
    cases v <;> simp_all [canonical]

end Decoder

namespace Fields

open Decoder (Readable)

theorem readable_of_single {unnamed missing : Option α}
    (h : (single name decode unnamed missing).read source p = .ok a) :
    Readable decode a ∨ unnamed = some a ∨ missing = some a := by
  rw [read_slot] at h
  cases hslot : source.slot name p with
  | some v =>
    rw [hslot] at h
    exact .inl ⟨v, h⟩
  | none =>
    rw [hslot] at h
    cases source with
    | members => exact .inr (.inl h)
    | elements => exact .inr (.inr h)

theorem readable_of_required (h : (required name decode).read source p = .ok a) :
    Readable decode a := by
  rcases readable_of_single h with h | h | h
  · exact h
  · cases h
  · cases h

/-- A default that could have been read does not show in what is returned. -/
theorem readable_of_optional {absent : α} (ha : Readable decode absent)
    (h : (optional name decode absent).read source p = .ok a) : Readable decode a := by
  rcases readable_of_single h with h | h | h
  · exact h
  · exact Option.some.inj h ▸ ha
  · exact Option.some.inj h ▸ ha

theorem readable_of_nullable (h : (nullable name decode).read source p = .ok o) :
    Readable (Decoder.nullable decode) o := readable_of_optional ⟨.null, rfl⟩ h

theorem readable_of_nullableInPlace (h : (nullableInPlace name decode).read source p = .ok o) :
    Readable (Decoder.nullable decode) o := by
  rcases readable_of_single h with h | h | h
  · exact h
  · exact Option.some.inj h ▸ ⟨.null, rfl⟩
  · cases h

end Fields

/-! ### What is read back -/

namespace Decoder

/-- Whatever can be read is read back from its encoding in settled form. -/
def Settles (decode : Decoder α) (encode : α → Json) (settle : α → α) : Prop :=
  ∀ a, decode.Readable a → decode (encode a) = .ok (settle a)

/-- Whatever can be read is read back from its encoding. -/
def Stable (decode : Decoder α) (encode : α → Json) : Prop :=
  ∀ a, decode.Readable a → decode (encode a) = .ok a

theorem Stable.settles (h : Stable decode encode) : Settles decode encode id := h

theorem integer_eq {word : String} {low high n : Int} :
    integer word low high v = .ok n ↔ v = .int n ∧ low ≤ n ∧ n ≤ high := by
  constructor
  · intro h
    unfold integer at h
    split at h
    · split at h
      · next hrange =>
        obtain rfl := Except.ok.inj h
        exact ⟨rfl, hrange⟩
      · cases h
    · cases h
  · rintro ⟨rfl, hrange⟩
    exact if_pos hrange

theorem stable_integer {word : String} {low high : Int} :
    Stable (integer word low high) Json.int := by
  rintro n ⟨v, h⟩
  obtain ⟨rfl, -⟩ := integer_eq.1 h
  exact h

theorem stable_natural {word : String} {bits : Nat} : Stable (natural word bits) Json.nat := by
  rintro n ⟨v, h⟩
  cases hread : integer word 0 (Nat.pow 2 bits - 1) v with
  | error e =>
    rw [natural, hread] at h
    cases h
  | ok i =>
    rw [natural, hread] at h
    obtain rfl : i.toNat = n := Except.ok.inj h
    obtain ⟨rfl, hi, -⟩ := integer_eq.1 hread
    have hback : Json.nat i.toNat = .int i := by rw [Json.nat, Int.toNat_of_nonneg hi]
    rw [hback, natural, hread]
    rfl

theorem Settles.list (h : Settles decode encode settle) :
    Settles (list decode) (fun as => .array (as.map encode)) (List.map settle) := by
  intro as has
  replace has := readable_list has
  change each decode (as.map encode) = .ok (as.map settle)
  induction as with
  | nil => rfl
  | cons a as ih =>
    obtain ⟨ha, has⟩ := List.forall_mem_cons.1 has
    exact each_cons.2 ⟨_, h a ha, _, ih has, rfl⟩

theorem Stable.list (h : Stable decode encode) :
    Stable (list decode) fun as => .array (as.map encode) := by
  intro as has
  simpa using h.settles.list as has

theorem list_text (ss : List String) : list text (.array (ss.map .string)) = .ok ss :=
  each_map (show ∀ s, text (.string s) = .ok s from fun _ => rfl) ss

end Decoder

namespace Fields

open Decoder (Readable Settles Stable)

theorem read_fits (hn : (es.map (·.1)).Nodup) {unnamed missing : Option α} :
    (single name decode unnamed missing).read (.members es) p = .ok a ↔
      Fits decode unnamed (find? name es) a := read_single_of_nodup hn

/-- What is written of a record is found under the names it was written under. -/
theorem record_of_lookup {fields : Fields α} {ms : List (String × Option Json)}
    (hn : (ms.map (·.1)).Nodup)
    (h : ∀ es : Entries Json, (es.map (·.1)).Nodup → (∀ k, find? k es = (ms.lookup k).join) →
      ∃ b, fields.read (.members es) 0 = .ok b ∧ b = a) :
    record name fields (.record ms) = .ok a := by
  refine (record_object (Entries.ordered_ofList _)).2 (h _ ?_ fun k => get?_record hn)
  exact (Entries.ordered_ofList _).nodup

theorem named_of_lookup {fields : Fields α} {ms : List (String × Option Json)}
    (hn : (ms.map (·.1)).Nodup)
    (h : ∀ es : Entries Json, (es.map (·.1)).Nodup → (∀ k, find? k es = (ms.lookup k).join) →
      ∃ b, fields.read (.members es) 0 = .ok b ∧ b = a) :
    named name fields (.record ms) = .ok a := by
  exact named_object.2 (h _ (Entries.ordered_ofList _).nodup fun k => get?_record hn)

theorem Fits.settled_some (hs : Settles decode encode settle) (hne : ∀ a, encode a ≠ .null)
    (h : Readable (Decoder.nullable decode) o) :
    Fits (Decoder.nullable decode) (some none) (o.map encode) (o.map settle) := by
  cases o with
  | none => rfl
  | some a =>
    exact Decoder.nullable_eq.2 (.inr ⟨hne a, _, hs a (Decoder.readable_nullable h), rfl⟩)

theorem Fits.stable_some (hs : Stable decode encode) (hne : ∀ a, encode a ≠ .null)
    (h : Readable (Decoder.nullable decode) o) :
    Fits (Decoder.nullable decode) (some none) (o.map encode) o := by
  simpa using Fits.settled_some hs.settles hne h

theorem Fits.map_some (hd : ∀ a, decode (encode a) = .ok a) (hne : ∀ a, encode a ≠ .null)
    (o : Option α) : Fits (Decoder.nullable decode) (some none) (o.map encode) o := by
  cases o with
  | none => rfl
  | some a => exact Decoder.nullable_eq.2 (.inr ⟨hne a, a, hd a, rfl⟩)

theorem Fits.text_some (o : Option String) :
    Fits (Decoder.nullable .text) (some none) (o.map .string) o := by
  cases o <;> rfl

theorem Fits.flag_some (o : Option Bool) :
    Fits (Decoder.nullable .flag) (some none) (o.map .bool) o := by
  cases o <;> rfl

theorem Fits.any_some {o : Option Json} (h : Readable (Decoder.nullable .any) o) :
    Fits (Decoder.nullable .any) (some none) o o := by
  cases o with
  | none => rfl
  | some u =>
    obtain ⟨hu, hc⟩ := Decoder.readable_any h
    exact Decoder.nullable_eq.2 (.inr ⟨hu, u, congrArg _ hc.canonical_eq, rfl⟩)

theorem Fits.nonEmpty_text (s : String) :
    Fits .text (some "") (if s.isEmpty then none else some (.string s)) s := by
  split
  · next h =>
    rw [String.isEmpty_iff] at h
    rw [h]
    rfl
  · rfl

theorem Fits.nonEmpty_list {as : List α}
    (h : Decoder.list decode (.array (as.map encode)) = .ok as) :
    Fits (.list decode) (some [])
      (if as.isEmpty then none else some (.array (as.map encode))) as := by
  split
  · next hempty =>
    rw [List.isEmpty_iff] at hempty
    rw [hempty]
    rfl
  · exact h

end Fields

end MachineProvider.Json
