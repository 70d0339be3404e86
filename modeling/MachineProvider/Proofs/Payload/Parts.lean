import MachineProvider.Payload.Status
import MachineProvider.Proofs.Json.Reading
import MachineProvider.Proofs.Timestamp.Reading

/-! The parts of a payload are read back from the documents they are written as. -/
namespace MachineProvider

open Json (Decoder Fields)
open Json.Fields (Holds)

namespace Json

variable {α : Type} {decode : Decoder α} {encode : α → Json}

theorem find?_record {ms : List (String × Option Json)} {k : String} (h : (ms.map (·.1)).Nodup) :
    Entries.find? k (Entries.ofList (ms.filterMap fun (k, v) => v.map (k, ·))) =
      (ms.lookup k).join := get?_record h

theorem Decoder.text_string (s : String) : Decoder.text (.string s) = .ok s := rfl

namespace Fields

variable {es : Entries Json} {name : String}

theorem Holds.written {absent : Option α} {v : Json} {a : α} (hf : Entries.find? name es = some v)
    (hd : decode v = .ok a) : Holds name decode absent es a := by
  simp [Holds, hf, hd]

/-- A value that is left out when there is none. -/
theorem Holds.written_some {o : Option α} (hf : Entries.find? name es = o.map encode)
    (hd : ∀ a, o = some a → encode a ≠ .null ∧ decode (encode a) = .ok a) :
    Holds name (Decoder.nullable decode) (some none) es o := by
  cases o with
  | none => simp [Holds, hf]
  | some a => exact .of_find? hf (hd a rfl).1 (hd a rfl).2

theorem Holds.written_text {s : String} (hf : Entries.find? name es = nonEmptyText s) :
    Holds name Decoder.text (some "") es s := by
  unfold nonEmptyText at hf
  split at hf
  · next h =>
    rw [String.isEmpty_iff] at h
    simp [Holds, hf, h]
  · simp [Holds, hf, Decoder.text]

theorem Holds.written_list {as : List α} (hf : Entries.find? name es = nonEmptyList encode as)
    (hd : ∀ a ∈ as, decode (encode a) = .ok a) :
    Holds name (Decoder.orDefault (.list decode)) (some default) es as := by
  unfold nonEmptyList at hf
  split at hf
  · next h =>
    rw [List.isEmpty_iff] at h
    simp only [Holds, hf, h]
    rfl
  · simp [Holds, hf, Decoder.orDefault, Decoder.list, Decoder.each_map_of_mem hd]

end Fields

end Json

variable {ms : Entries Json}

theorem SecretReference.decode_toJson (r : SecretReference) : decode r.toJson = .ok r := by
  refine (Fields.record_object (Entries.ordered_ofList _)).2 ?_
  simp only [Fields.read_map, Fields.required, Fields.read_single (Entries.ordered_ofList _)]
  exact ⟨_, .written (Json.find?_record (by simp)) rfl, rfl⟩

theorem AddressSpec.decode_toJson (a : AddressSpec) : decode a.toJson = .ok a := by
  refine (Fields.record_object (Entries.ordered_ofList _)).2 ?_
  simp only [Fields.read_seq, Fields.read_map, Fields.optional,
    Fields.read_single (Entries.ordered_ofList _)]
  exact ⟨_, .written (Json.find?_record (by simp)) rfl,
    _, .written (Json.find?_record (by simp)) rfl, rfl⟩

theorem InterfaceType.decode_text (t : InterfaceType) : decode (.string t.text) = .ok t := by
  cases t <;> rfl

theorem InterfaceSpec.decode_toJson (i : InterfaceSpec) : decode i.toJson = .ok i := by
  refine (Fields.record_object (Entries.ordered_ofList _)).2 ?_
  simp only [Fields.read_seq, Fields.read_map, Fields.required, Fields.optional, Fields.nullable,
    Fields.read_single (Entries.ordered_ofList _)]
  refine ⟨_, .written (Json.find?_record (by simp)) i.type.decode_text, _,
    .written (Json.find?_record (by simp)) rfl, _,
    .written_some (Json.find?_record (by simp)) fun as _ => ⟨by rintro ⟨⟩, ?_⟩, rfl⟩
  exact Decoder.each_map AddressSpec.decode_toJson as

namespace Kubernetes

theorem Requirement.decode_toJson (r : Requirement) : decode r.toJson = .ok r := by
  refine Fields.named_object.2 ?_
  simp only [Fields.read_seq, Fields.read_map, field, Fields.defaulted, Fields.optional,
    Fields.nullable, Fields.read_single (Entries.ordered_ofList _)]
  refine ⟨_, .written (Json.find?_record (by simp)) rfl, _,
    .written (Json.find?_record (by simp)) rfl, _,
    .written_some (Json.find?_record (by simp)) fun vs _ => ⟨by rintro ⟨⟩, ?_⟩, rfl⟩
  exact Decoder.each_map Decoder.text_string vs

theorem LabelSelector.decode_toJson (s : LabelSelector) : decode s.toJson = .ok s := by
  refine Fields.named_object.2 ?_
  simp only [Fields.read_seq, Fields.read_map, Fields.optional, Fields.nullable,
    Fields.read_single (Entries.ordered_ofList _)]
  refine ⟨_, .written_some (Json.find?_record (by simp)) fun rs _ => ⟨by rintro ⟨⟩, ?_⟩, _,
    .written_some (Json.find?_record (by simp)) fun m _ => ⟨by rintro ⟨⟩, ?_⟩, rfl⟩
  · exact Decoder.each_map Requirement.decode_toJson rs
  · exact Decoder.map_text_ofStrings m

theorem timestamp_text {t : Timestamp} (h : t.WholeSecond) :
    timestamp (.string t.text) = .ok t := by
  simp only [timestamp, Timestamp.parse_text h]
  rfl

namespace Condition

variable {ms : Entries Json} {p : Nat} {t : Timestamp}

/-- The time of a transition may be neither absent nor null. -/
theorem read_transitionTime (ho : ms.Ordered) :
    transitionTime.read (.members ms) p = .ok t ↔
      Holds "lastTransitionTime" (Decoder.nullable timestamp) (some none) ms (some t) := by
  have hread : (Fields.nullable "lastTransitionTime" timestamp).read (.members ms) p =
      .ok (some t) ↔ Holds "lastTransitionTime" (Decoder.nullable timestamp) (some none) ms
          (some t) := by
    simp only [Fields.nullable, Fields.optional, Fields.read_single ho]
  rw [← hread]
  unfold transitionTime
  cases hr : (Fields.nullable "lastTransitionTime" timestamp).read (.members ms) p with
  | error e => simp [hr]
  | ok o => cases o <;> simp [hr]

/-- Values that a condition can have. -/
structure Valid (c : Condition) : Prop where
  time : c.lastTransitionTime.WholeSecond
  generation : ∀ n ∈ c.observedGeneration, -0x8000000000000000 ≤ n ∧ n ≤ 0x7fffffffffffffff

theorem decode_toJson {c : Condition} (h : c.Valid) : decode c.toJson = .ok c := by
  refine Fields.named_object.2 ?_
  simp only [Fields.read_seq, Fields.read_map, field, Fields.defaulted, Fields.optional,
    Fields.nullable, Fields.read_single (Entries.ordered_ofList _),
    read_transitionTime (Entries.ordered_ofList _)]
  have htime := timestamp_text h.time
  refine ⟨_, .of_find? (Json.find?_record (by simp)) (by rintro ⟨⟩) htime, _,
    .written (Json.find?_record (by simp)) rfl, _,
    .written_some (Json.find?_record (by simp)) fun n hn => ⟨by rintro ⟨⟩, ?_⟩, _,
    .written (Json.find?_record (by simp)) rfl, _, .written (Json.find?_record (by simp)) rfl, _,
    .written (Json.find?_record (by simp)) rfl, rfl⟩
  exact if_pos (h.generation n hn)

end Condition

end Kubernetes

end MachineProvider
