import MachineProvider.Proofs.Json.Stability
import MachineProvider.Proofs.Payload.Markers
import Mathlib.Data.List.Forall2

/-! Containers of a payload that hold nothing: left out, null or empty. Lists and tags
are read alike in all three cases; where nothing and none are told apart, only null is as
good as left out. -/
namespace MachineProvider

open Json (Decoder Fields)
open Json.Fields (Holds Fits)

/-- The ways in which a container may hold nothing. -/
inductive Vacancy where
  | absent
  | null
  | empty
deriving DecidableEq

namespace Vacancy

/-- What stands for a container, given what an empty one looks like. -/
def json (hollow : Json) : Vacancy → Option Json
  | absent => none
  | null => some .null
  | empty => some hollow

end Vacancy

/-- The members with one of them replaced, or left out. -/
def Entries.put (name : String) (v : Option Json) (ms : Entries Json) : Entries Json :=
  match v with
  | none => ms.erase name
  | some v => ms.insert name v

theorem Entries.find?_put {name k : String} {v : Option Json} {ms : Entries Json} :
    find? k (put name v ms) = if k = name then v else find? k ms := by
  cases v with
  | none => exact find?_erase
  | some v => exact find?_insert

theorem Entries.Ordered.put {name : String} {v : Option Json} {ms : Entries Json}
    (ho : ms.Ordered) :
    (Entries.put name v ms).Ordered := by
  cases v with
  | none => exact ho.erase
  | some v => exact ho.insert

/-- A way to hold nothing for each list of a payload and for its tags. -/
structure Vacancies where
  serverGroups : Vacancy
  tags : Vacancy
  sshKeys : Vacancy
  interfaces : Vacancy

namespace Vacancies

/-- A payload whose lists and tags hold nothing. -/
def fill (α : Vacancies) (ms : Entries Json) : Entries Json :=
  Entries.put "serverGroups" (α.serverGroups.json (.array [])) <|
    Entries.put "tags" (α.tags.json (.object [])) <|
    Entries.put "sshKeys" (α.sshKeys.json (.array [])) <|
    Entries.put "interfaces" (α.interfaces.json (.array [])) ms

variable {α β : Vacancies} {ms : Entries Json}

theorem ordered_fill (ho : ms.Ordered) : (α.fill ms).Ordered := ho.put.put.put.put

end Vacancies

namespace Json.Fields

variable {α : Type} {decode : Decoder α} {name : String} {ms : Entries Json} {v : Vacancy}

theorem holds_vacant [Inhabited α] {hollow : Json} (hv : Entries.find? name ms = v.json hollow)
    (hhollow : hollow ≠ .null ∧ decode hollow = .ok default) {a : α} :
    Holds name (Decoder.orDefault decode) (some default) ms a ↔ default = a := by
  unfold Holds
  rw [hv]
  cases v with
  | absent => simp [Vacancy.json]
  | null => simp [Vacancy.json, Decoder.orDefault]
  | empty =>
    have hread : Decoder.orDefault decode hollow = decode hollow := by
      obtain ⟨hne, -⟩ := hhollow
      cases hollow <;> first | rfl | exact absurd rfl hne
    simp [Vacancy.json, hread, hhollow.2]

end Json.Fields

namespace Vacancies

variable {α β : Vacancies} {ms : Entries Json} {spec : ProviderSpec}

theorem find?_fill {k : String} (hk : k ∉ ["serverGroups", "tags", "sshKeys", "interfaces"]) :
    Entries.find? k (α.fill ms) = Entries.find? k ms := by
  simp only [List.mem_cons, List.not_mem_nil, or_false, not_or] at hk
  simp [fill, Entries.find?_put, hk]

theorem holds_fill {γ : Type} {name : String} {decode : Decoder γ} {absent : Option γ} {c : γ}
    (hk : name ∉ ["serverGroups", "tags", "sshKeys", "interfaces"]) :
    Holds name decode absent (α.fill ms) c ↔ Holds name decode absent ms c := by
  unfold Holds
  rw [find?_fill hk]

theorem find?_serverGroups (α : Vacancies) (ms : Entries Json) :
    Entries.find? "serverGroups" (α.fill ms) = α.serverGroups.json (.array []) := by
  simp [fill, Entries.find?_put]

theorem find?_tags (α : Vacancies) (ms : Entries Json) :
    Entries.find? "tags" (α.fill ms) = α.tags.json (.object []) := by
  simp [fill, Entries.find?_put]

theorem find?_sshKeys (α : Vacancies) (ms : Entries Json) :
    Entries.find? "sshKeys" (α.fill ms) = α.sshKeys.json (.array []) := by
  simp [fill, Entries.find?_put]

theorem find?_interfaces (α : Vacancies) (ms : Entries Json) :
    Entries.find? "interfaces" (α.fill ms) = α.interfaces.json (.array []) := by
  simp [fill, Entries.find?_put]

/-- What a payload with vacant lists and tags says is a matter of its other members. -/
theorem decode_fill (ho : ms.Ordered) :
    ProviderSpec.decode (.object (α.fill ms)) = .ok spec ↔
      ProviderSpec.decode (.object (β.fill ms)) = .ok spec := by
  have hgroups (γ : Vacancies) :
      Holds "serverGroups" (Decoder.orDefault (.list .text)) (some default) (γ.fill ms)
        spec.serverGroups ↔ default = spec.serverGroups :=
    Fields.holds_vacant (find?_serverGroups γ ms) ⟨by rintro ⟨⟩, rfl⟩
  have htags (γ : Vacancies) :
      Holds "tags" (Decoder.orDefault (.map .text)) (some default) (γ.fill ms) spec.tags ↔
        default = spec.tags :=
    Fields.holds_vacant (find?_tags γ ms) ⟨by rintro ⟨⟩, rfl⟩
  have hkeys (γ : Vacancies) :
      Holds "sshKeys" (Decoder.orDefault (.list .text)) (some default) (γ.fill ms)
        spec.sshKeys ↔ default = spec.sshKeys :=
    Fields.holds_vacant (find?_sshKeys γ ms) ⟨by rintro ⟨⟩, rfl⟩
  have hinterfaces (γ : Vacancies) :
      Holds "interfaces" (Decoder.orDefault (.list InterfaceSpec.decode)) (some default)
        (γ.fill ms) spec.interfaces ↔ default = spec.interfaces :=
    Fields.holds_vacant (find?_interfaces γ ms) ⟨by rintro ⟨⟩, rfl⟩
  rw [ProviderSpec.decode_object (ordered_fill ho), ProviderSpec.decode_object (ordered_fill ho)]
  simp only [hgroups, htags, hkeys, hinterfaces, holds_fill, List.mem_cons, List.not_mem_nil,
    String.reduceEq, or_self, not_false_eq_true]

theorem sshKeys_of_fill (ho : ms.Ordered)
    (h : ProviderSpec.decode (.object (α.fill ms)) = .ok spec) : spec.sshKeys = [] := by
  obtain ⟨-, -, -, -, -, -, -, -, -, -, -, -, hkeys, -⟩ :=
    (ProviderSpec.decode_object (ordered_fill ho)).1 h
  exact ((Fields.holds_vacant (find?_sshKeys α ms) ⟨by rintro ⟨⟩, rfl⟩).1 hkeys).symm

theorem textsRight_fill {kind : String} :
    Payload.TextsRight kind (α.fill ms) ↔ Payload.TextsRight kind ms := by
  have hversion : Entries.find? "apiVersion" (α.fill ms) = _ := find?_fill (by decide)
  have hkind : Entries.find? "kind" (α.fill ms) = _ := find?_fill (by decide)
  constructor
  · rintro ⟨hv, hk⟩
    exact ⟨hversion ▸ hv, hkind ▸ hk⟩
  · rintro ⟨hv, hk⟩
    exact ⟨hversion ▸ hv, hkind ▸ hk⟩

theorem ofRaw_fill (ho : ms.Ordered) :
    ProviderSpec.ofRaw (some (.object (α.fill ms))) = .ok spec ↔
      ProviderSpec.ofRaw (some (.object (β.fill ms))) = .ok spec := by
  unfold ProviderSpec.ofRaw
  rw [Payload.open_object, Payload.open_object, textsRight_fill, textsRight_fill, decode_fill ho]

end Vacancies

section Apart

/-- What stands for nothing at all. -/
def IsVacant (slot : Option Json) : Prop := slot = none ∨ slot = some .null

/-- Nothing at all is told apart from something without contents. -/
structure ToldApart {γ : Type} (slot : Option Json) (hollow : Json) (o : Option γ)
    (c : γ) : Prop where
  missing : o = none ↔ IsVacant slot
  empty : o = some c ↔ slot = some hollow

variable {γ δ : Type} {decode : Decoder γ} {slot : Option Json} {o : Option γ} {c : γ} {d : δ}
  {hollow : Json} {ms : Entries Json} {spec : ProviderSpec} {e : Json} {i : InterfaceSpec}

theorem toldApart_of_fits (h : Fits (Decoder.nullable decode) (some none) slot o)
    (hne : hollow ≠ .null) (hollows : ∀ v, slot = some v → (decode v = .ok c ↔ v = hollow)) :
    ToldApart slot hollow o c := by
  cases slot with
  | none =>
    obtain rfl := Option.some.inj h
    exact ⟨by simp [IsVacant], by simp⟩
  | some v =>
    specialize hollows v rfl
    rcases Decoder.nullable_eq.1 h with ⟨rfl, rfl⟩ | ⟨hv, d, hd, rfl⟩
    · exact ⟨by simp [IsVacant], by simp [hne.symm]⟩
    · rw [hd] at hollows
      refine ⟨by simp [IsVacant, hv], ?_⟩
      rw [Option.some_inj, Option.some_inj, ← hollows]
      exact ⟨congrArg _, Except.ok.inj⟩

theorem ToldApart.map {f : γ → δ} (h : ToldApart slot hollow o c) (hf : ∀ x, f x = d ↔ x = c) :
    ToldApart slot hollow (o.map f) d := by
  refine ⟨by rw [Option.map_eq_none_iff, h.missing], ?_⟩
  rw [← h.empty]
  cases o with
  | none => simp
  | some x => simp [hf]

/-- Without tags for the root volume is another payload than with an empty set of them. -/
theorem toldApart_rootVolumeTags (hc : (Json.object ms).Canonical)
    (h : ProviderSpec.decode (.object ms) = .ok spec) :
    ToldApart (Entries.find? "rootVolumeTags" ms) (.object []) spec.rootVolumeTags ∅ := by
  obtain ⟨-, -, -, -, -, -, -, -, htags, -⟩ := (ProviderSpec.decode_object hc.ordered).1 h
  refine toldApart_of_fits htags (by rintro ⟨⟩) fun v hv => ?_
  have hcanonical := Json.canonical_of_find? hc hv
  cases v with
  | object vs => exact Decoder.map_text_object hcanonical.ordered
  | _ => simp [Decoder.map]

/-- Without addresses is another interface than with an empty list of them. -/
theorem toldApart_addresses (h : InterfaceSpec.decode e = .ok i) :
    ToldApart (e.slot "addresses" 2) (.array []) i.addresses [] := by
  obtain ⟨source, hsource, hread⟩ := Fields.read_of_record h
  simp only [Fields.read_seq, Fields.read_map, Fields.read_nullable] at hread
  obtain ⟨type, -, network, -, addresses, hfits, rfl⟩ := hread
  have hslot : e.slot "addresses" 2 = source.slot "addresses" 2 := by
    rw [Json.slot, hsource, Option.bind_some]
  rw [hslot]
  refine toldApart_of_fits hfits (by rintro ⟨⟩) fun v _ => ?_
  cases v with
  | array vs =>
    cases vs with
    | nil => exact ⟨fun _ => rfl, fun _ => rfl⟩
    | cons v vs =>
      simp only [Decoder.list, Decoder.each_cons]
      simp
  | _ => simp [Decoder.list]

theorem each_forall₂ {vs : List Json} {cs : List γ} (h : Decoder.each decode vs = .ok cs) :
    List.Forall₂ (fun v c => decode v = .ok c) vs cs := by
  induction vs generalizing cs with
  | nil =>
    obtain rfl := Except.ok.inj h
    exact .nil
  | cons v vs ih =>
    obtain ⟨c, hc, rest, hrest, rfl⟩ := Decoder.each_cons.1 h
    exact .cons hc (ih hrest)

/-- The interfaces of a payload are read one by one. -/
theorem interfaces_forall₂ {es : List Json} (ho : ms.Ordered)
    (h : ProviderSpec.decode (.object ms) = .ok spec)
    (hes : Entries.find? "interfaces" ms = some (.array es)) :
    List.Forall₂ (fun e i => InterfaceSpec.decode e = .ok i) es spec.interfaces := by
  obtain ⟨-, -, -, -, -, -, -, -, -, -, -, -, -, -, hinterfaces⟩ :=
    (ProviderSpec.decode_object ho).1 h
  unfold Holds at hinterfaces
  rw [hes] at hinterfaces
  exact each_forall₂
    (show Decoder.each InterfaceSpec.decode es = .ok spec.interfaces from hinterfaces)

end Apart

end MachineProvider
