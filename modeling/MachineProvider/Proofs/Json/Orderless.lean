import MachineProvider.Proofs.Json.Stability

/-! What is read of a document stays the same when its members are put in order, at every depth. -/
namespace MachineProvider.Json

open Entries (find?)

variable {α β : Type} {decode : Decoder α} {name : String} {source : Source} {p : Nat} {v : Json}

theorem canonical_eq_null : v.canonical = .null ↔ v = .null := by
  cases v <;> simp [canonical]

/-- A source with its members in key order, at every depth. -/
def Source.canonical : Source → Source
  | .members ms => .members (Entries.ofList (canonicalMembers ms))
  | .elements vs => .elements (canonicalElements vs)

theorem Source.slot_canonical :
    source.canonical.slot name p = (source.slot name p).map Json.canonical := by
  cases source with
  | members ms =>
    have hord := Entries.ordered_ofList (canonicalMembers ms)
    change find? name (Entries.ofList (canonicalMembers ms)).reverse = _
    rw [← Entries.find?_ofList, hord.ofList_eq, Entries.find?_ofList, canonicalMembers_eq,
      ← List.map_reverse, Entries.find?_map]
    rfl
  | elements vs =>
    change (canonicalElements vs)[p]? = _
    rw [canonicalElements_eq, List.getElem?_map]
    rfl

/-- What is read stays the same when the members are put in order. -/
def Decoder.Orderless (decode : Decoder α) : Prop :=
  ∀ v a, decode v = .ok a → decode v.canonical = .ok a

def Fields.Orderless (fields : Fields α) : Prop :=
  ∀ source p a, fields.read source p = .ok a → fields.read source.canonical p = .ok a

namespace Fields.Orderless

theorem single {unnamed missing : Option α} (h : decode.Orderless) :
    (single name decode unnamed missing).Orderless := by
  intro source p a hread
  rw [read_slot] at hread ⊢
  rw [Source.slot_canonical]
  cases hs : source.slot name p with
  | none =>
    rw [hs] at hread
    cases source <;> exact hread
  | some v =>
    rw [hs] at hread
    exact h v a hread

theorem optional {absent : α} (h : decode.Orderless) :
    (Fields.optional name decode absent).Orderless := single h

theorem map {f : α → β} {x : Fields α} (hx : x.Orderless) : (f <$> x).Orderless := by
  intro source p b hread
  obtain ⟨a, ha, rfl⟩ := read_map.1 ⟨b, hread, rfl⟩
  obtain ⟨c, hc, rfl⟩ := read_map.2 ⟨a, hx source p a ha, rfl⟩
  exact hc

theorem seq {f : Fields (α → β)} {x : Fields α} (hf : f.Orderless) (hx : x.Orderless) :
    (f <*> x).Orderless := by
  intro source p b hread
  obtain ⟨g, hg, a, ha, rfl⟩ := read_seq.1 ⟨b, hread, rfl⟩
  obtain ⟨c, hc, rfl⟩ := read_seq.2 ⟨g, hf source p g hg, a, hx source _ a ha, rfl⟩
  exact hc

end Fields.Orderless

namespace Decoder.Orderless

theorem text : Decoder.text.Orderless := by
  intro v s h
  obtain rfl := text_eq.1 h
  rfl

theorem flag : Decoder.flag.Orderless := by
  intro v b h
  cases v with
  | bool => exact h
  | _ => cases h

theorem natural {word : String} {bits : Nat} : (Decoder.natural word bits).Orderless := by
  intro v n h
  cases v with
  | number => exact h
  | _ => cases h

theorem nullable (h : decode.Orderless) : (Decoder.nullable decode).Orderless := by
  intro v o hread
  rw [nullable_eq] at hread ⊢
  rw [Ne, canonical_eq_null]
  rcases hread with hread | ⟨hv, a, ha, rfl⟩
  · exact .inl hread
  · exact .inr ⟨hv, a, h v a ha, rfl⟩

theorem list (h : decode.Orderless) : (Decoder.list decode).Orderless := by
  intro v as hread
  cases v with
  | array vs =>
    change each decode vs = .ok as at hread
    rw [canonical_array]
    change each decode (vs.map canonical) = .ok as
    induction vs generalizing as with
    | nil => exact hread
    | cons v vs ih =>
      obtain ⟨a, ha, bs, hbs, rfl⟩ := each_cons.1 hread
      exact each_cons.2 ⟨a, h v a ha, bs, ih bs hbs, rfl⟩
  | _ => cases hread

theorem texts : (Decoder.map .text).Orderless := by
  intro v m hread
  cases v with
  | object ms =>
    change (eachMember Decoder.text ms).map StringMap.ofList = .ok m at hread
    cases hr : eachMember Decoder.text ms with
    | error e => simp [hr, Except.map] at hread
    | ok ps =>
      obtain rfl := eachMember_text.1 hr
      obtain rfl : StringMap.ofList ps = m := by simpa [hr, Except.map] using hread
      have hcan : (object (ps.map fun p => (p.1, Json.string p.2))).canonical =
          .ofStrings (.ofList ps) := by
        rw [canonical_object, List.map_map]
        exact congrArg object (Entries.ofList_map Json.string ps).symm
      rw [hcan]
      exact map_text_ofStrings _
  | _ => cases hread

theorem record {fields : Fields α} (h : fields.Orderless) :
    (Fields.record name fields).Orderless := by
  intro v a hread
  obtain ⟨source, hsource, b, hb, rfl⟩ := Fields.read_of_record hread
  cases v with
  | object ms =>
    obtain rfl := Option.some.inj hsource
    exact (Fields.record_object (Entries.ordered_ofList _)).2 ⟨b, h _ 0 b hb, rfl⟩
  | array vs =>
    obtain rfl := Option.some.inj hsource
    have hback : fields.read (.elements (canonicalElements vs)) 0 = .ok b := h _ 0 b hb
    have hlen : (canonicalElements vs).length = vs.length := by simp [canonicalElements_eq]
    change Fields.record name fields (.array (canonicalElements vs)) = .ok b
    simp only [Fields.record, hb] at hread
    simp only [Fields.record, hback, hlen]
    exact hread
  | _ => cases hsource

end Decoder.Orderless

theorem Fields.Orderless.nullable (h : decode.Orderless) :
    (Fields.nullable name decode).Orderless := .optional h.nullable

end MachineProvider.Json
