import MachineProvider.Machine.Basic
import MachineProvider.Proofs.Cloud.Reencoding
import MachineProvider.Proofs.Json.Paths
import MachineProvider.Proofs.Machine.Decoding
import MachineProvider.Proofs.Timestamp.Seconds

/-! Machines and machine sets settle when they are written: only parts of a second are lost. -/
namespace MachineProvider

open Json (Decoder Fields)
open Kubernetes (Metadata)
open Json.Decoder (Readable Settles Stable)

namespace Kubernetes

/-! ### Metadata -/

theorem settles_timestamp : Settles timestamp (fun t => .string t.text) Timestamp.toSecond := by
  rintro t ⟨v, h⟩
  cases v with
  | string s =>
    simp only [timestamp, Json.mapError_eq_ok] at h ⊢
    exact Timestamp.parse_text_toSecond h
  | _ => cases h

theorem OwnerReference.decode_toJson (r : OwnerReference) : decode r.toJson = .ok r := by
  refine Fields.named_of_lookup (by simp) fun es hn hfind => ?_
  simp only [Fields.read_seq, Fields.read_map, field, Fields.defaulted, Fields.nullable,
    Fields.optional, Fields.read_fits hn, hfind, List.lookup_cons, beq_self_eq_true,
    String.reduceBEq, Option.join_some, Fields.fits_some]
  exact ⟨_, rfl, _, .flag_some r.blockOwnerDeletion, _, .flag_some r.controller, _, rfl, _, rfl,
    _, rfl, rfl⟩

/-- The entry as it is read again: its time without a part of a second. -/
def ManagedFields.toSecond (m : ManagedFields) : ManagedFields :=
  { m with time := m.time.map Timestamp.toSecond }

theorem ManagedFields.toJson_toSecond (m : ManagedFields) : m.toSecond.toJson = m.toJson := by
  simp only [toJson, toSecond, Option.map_map, Function.comp_def, Timestamp.text_toSecond]

theorem ManagedFields.settles : Settles decode toJson toSecond := by
  rintro m ⟨v, h⟩
  obtain ⟨source, h⟩ := Fields.read_of_named h
  simp only [Fields.read_seq, Fields.read_map] at h
  obtain ⟨apiVersion, -, fieldsType, -, fields, hfields, manager, -, operation, -, subresource, -,
    time, htime, rfl⟩ := h
  have hfields := Fields.readable_of_nullable hfields
  have htime := Fields.readable_of_nullable htime
  refine Fields.named_of_lookup (by simp) fun es hn hfind => ?_
  simp only [Fields.read_seq, Fields.read_map, Fields.nullable, Fields.optional,
    Fields.read_fits hn, hfind, List.lookup_cons, beq_self_eq_true, String.reduceBEq,
    Option.join_some]
  exact ⟨_, .text_some apiVersion, _, .text_some fieldsType, _, .any_some hfields,
    _, .text_some manager, _, .text_some operation, _, .text_some subresource,
    _, .settled_some settles_timestamp (by rintro _ ⟨⟩) htime, rfl⟩

namespace Metadata

/-- The metadata as it is read again: its times without parts of a second. -/
def toSecond (m : Metadata) : Metadata :=
  { m with
    creationTimestamp := m.creationTimestamp.map Timestamp.toSecond
    deletionTimestamp := m.deletionTimestamp.map Timestamp.toSecond
    managedFields := m.managedFields.map (List.map ManagedFields.toSecond) }

theorem toJson_toSecond (m : Metadata) : m.toSecond.toJson = m.toJson := by
  simp only [toJson, toSecond, Option.map_map, Function.comp_def, Timestamp.text_toSecond,
    List.map_map, ManagedFields.toJson_toSecond]

theorem settles : Settles decode toJson toSecond := by
  rintro m ⟨v, h⟩
  obtain ⟨source, h⟩ := Fields.read_of_named h
  simp only [Fields.read_seq, Fields.read_map] at h
  obtain ⟨annotations, -, creationTimestamp, hcreation, gracePeriod, hgrace, deletionTimestamp,
    hdeletion, finalizers, -, generateName, -, generation, hgeneration, labels, -, managedFields,
    hmanaged, name, -, namespace_, -, ownerReferences, -, resourceVersion, -, selfLink, -, uid, -,
    rfl⟩ := h
  have hcreation := Fields.readable_of_nullable hcreation
  have hgrace := Fields.readable_of_nullable hgrace
  have hdeletion := Fields.readable_of_nullable hdeletion
  have hgeneration := Fields.readable_of_nullable hgeneration
  have hmanaged := Fields.readable_of_nullable hmanaged
  refine Fields.named_of_lookup (by simp) fun es hn hfind => ?_
  simp only [Fields.read_seq, Fields.read_map, Fields.nullable, Fields.optional,
    Fields.read_fits hn, hfind, List.lookup_cons, beq_self_eq_true, String.reduceBEq,
    Option.join_some]
  refine ⟨_, .map_some Decoder.map_text_ofStrings (by rintro _ ⟨⟩) annotations,
    _, .settled_some settles_timestamp (by rintro _ ⟨⟩) hcreation,
    _, .stable_some Decoder.stable_integer (by rintro _ ⟨⟩) hgrace,
    _, .settled_some settles_timestamp (by rintro _ ⟨⟩) hdeletion,
    _, .map_some Decoder.list_text (by rintro _ ⟨⟩) finalizers,
    _, .text_some generateName,
    _, .stable_some Decoder.stable_integer (by rintro _ ⟨⟩) hgeneration,
    _, .map_some Decoder.map_text_ofStrings (by rintro _ ⟨⟩) labels,
    _, .settled_some ManagedFields.settles.list (by rintro _ ⟨⟩) hmanaged,
    _, .text_some name, _, .text_some namespace_,
    _, .map_some (Decoder.each_map OwnerReference.decode_toJson) (by rintro _ ⟨⟩) ownerReferences,
    _, .text_some resourceVersion, _, .text_some selfLink, _, .text_some uid, rfl⟩

end Metadata

end Kubernetes

/-! ### Specs and statuses -/

theorem MachineSpec.stable_value :
    Stable decodeValue fun value => .record [("value", value)] := by
  rintro value ⟨v, h⟩
  obtain ⟨source, -, value, hread, rfl⟩ := Fields.read_of_record h
  have hvalue := Fields.readable_of_nullable hread
  refine Fields.record_of_lookup (by simp) fun es hn hfind => ?_
  simp only [Fields.nullable, Fields.optional, Fields.read_fits hn, hfind, List.lookup_cons,
    beq_self_eq_true, Option.join_some]
  exact ⟨_, .any_some hvalue, rfl⟩

theorem MachineSpec.stable : Stable decode toJson := by
  rintro s ⟨v, h⟩
  obtain ⟨source, -, h⟩ := Fields.read_of_record h
  simp only [Fields.read_seq, Fields.read_map] at h
  obtain ⟨providerId, -, providerValue, hvalue, rfl⟩ := h
  have hvalue : Readable decodeValue providerValue :=
    Fields.readable_of_optional ⟨.object [], rfl⟩ hvalue
  refine Fields.record_of_lookup (by simp) fun es hn hfind => ?_
  simp only [Fields.read_seq, Fields.read_map, Fields.nullable, Fields.optional,
    Fields.read_fits hn, hfind, List.lookup_cons, beq_self_eq_true, String.reduceBEq,
    Option.join_some, Fields.fits_some]
  exact ⟨_, .text_some providerId, _, stable_value _ hvalue, rfl⟩

theorem MachineStatus.stable : Stable decode toJson := by
  rintro s ⟨v, h⟩
  obtain ⟨source, -, h⟩ := Fields.read_of_record h
  simp only [Fields.read_seq, Fields.read_map] at h
  obtain ⟨addresses, -, providerStatus, hprovider, phase, -, errorReason, -, errorMessage, -,
    rfl⟩ := h
  have hprovider := Fields.readable_of_nullable hprovider
  refine Fields.record_of_lookup (by simp) fun es hn hfind => ?_
  simp only [Fields.read_seq, Fields.read_map, Fields.nullable, Fields.optional,
    Fields.read_fits hn, hfind, List.lookup_cons, beq_self_eq_true, String.reduceBEq,
    Option.join_some]
  exact ⟨_, .nonEmpty_list (Decoder.each_map MachineAddress.decode_toJson addresses),
    _, .any_some hprovider, _, .text_some phase, _, .text_some errorReason,
    _, .text_some errorMessage, rfl⟩

theorem MachineSetSpec.stable_template :
    Stable decodeTemplate fun template => .record [("spec", some template.toJson)] := by
  rintro template ⟨v, h⟩
  obtain ⟨source, -, template, hread, rfl⟩ := Fields.read_of_record h
  have htemplate : Readable MachineSpec.decode template :=
    Fields.readable_of_optional ⟨.object [], rfl⟩ hread
  refine Fields.record_of_lookup (by simp) fun es hn hfind => ?_
  simp only [Fields.optional, Fields.read_fits hn, hfind, List.lookup_cons, beq_self_eq_true,
    Option.join_some, Fields.fits_some]
  exact ⟨_, MachineSpec.stable _ htemplate, rfl⟩

theorem MachineSetSpec.stable : Stable decode toJson := by
  rintro s ⟨v, h⟩
  obtain ⟨source, -, h⟩ := Fields.read_of_record h
  simp only [Fields.read_seq, Fields.read_map] at h
  obtain ⟨replicas, hreplicas, template, htemplate, rfl⟩ := h
  have hreplicas := Fields.readable_of_nullable hreplicas
  have htemplate : Readable decodeTemplate template :=
    Fields.readable_of_optional ⟨.object [], rfl⟩ htemplate
  refine Fields.record_of_lookup (by simp) fun es hn hfind => ?_
  simp only [Fields.read_seq, Fields.read_map, Fields.nullable, Fields.optional,
    Fields.read_fits hn, hfind, List.lookup_cons, beq_self_eq_true, String.reduceBEq,
    Option.join_some, Fields.fits_some]
  exact ⟨_, .stable_some Decoder.stable_integer (by rintro _ ⟨⟩) hreplicas,
    _, stable_template _ htemplate, rfl⟩

/-! ### Machines and machine sets -/

namespace Machine

/-- The machine as it is read again. -/
def toSecond (m : Machine) : Machine := { m with metadata := m.metadata.toSecond }

theorem toJson_toSecond (m : Machine) : m.toSecond.toJson = m.toJson := by
  simp only [toJson, toSecond, Metadata.toJson_toSecond]

theorem settles : Settles decode toJson toSecond := by
  rintro m ⟨v, h⟩
  obtain ⟨source, -, h⟩ := Fields.read_of_record h
  simp only [Fields.read_seq, Fields.read_map] at h
  obtain ⟨metadata, hmetadata, spec, hspec, status, hstatus, rfl⟩ := h
  have hmetadata := Fields.readable_of_required hmetadata
  have hspec := Fields.readable_of_required hspec
  have hstatus := Fields.readable_of_nullableInPlace hstatus
  refine Fields.record_of_lookup (by simp) fun es hn hfind => ?_
  simp only [Fields.read_seq, Fields.read_map, Fields.required, Fields.nullableInPlace,
    Fields.read_fits hn, hfind, List.lookup_cons, beq_self_eq_true, String.reduceBEq,
    Option.join_some, Fields.fits_some]
  exact ⟨_, Metadata.settles _ hmetadata, _, MachineSpec.stable _ hspec,
    _, .stable_some MachineStatus.stable (by rintro _ ⟨⟩) hstatus, rfl⟩

end Machine

namespace MachineSet

/-- The machine set as it is read again. -/
def toSecond (s : MachineSet) : MachineSet := { s with metadata := s.metadata.toSecond }

theorem toJson_toSecond (s : MachineSet) : s.toSecond.toJson = s.toJson := by
  simp only [toJson, toSecond, Metadata.toJson_toSecond]

theorem settles : Settles decode toJson toSecond := by
  rintro s ⟨v, h⟩
  obtain ⟨source, -, h⟩ := Fields.read_of_record h
  simp only [Fields.read_seq, Fields.read_map] at h
  obtain ⟨metadata, hmetadata, spec, hspec, rfl⟩ := h
  have hmetadata := Fields.readable_of_required hmetadata
  have hspec := Fields.readable_of_required hspec
  refine Fields.record_of_lookup (by simp) fun es hn hfind => ?_
  simp only [Fields.read_seq, Fields.read_map, Fields.required, Fields.read_fits hn, hfind,
    List.lookup_cons, beq_self_eq_true, String.reduceBEq, Option.join_some, Fields.fits_some]
  exact ⟨_, Metadata.settles _ hmetadata, _, MachineSetSpec.stable _ hspec, rfl⟩

end MachineSet

/-! ### Opaque documents -/

theorem MachineSpec.value_of_decodeValue {v : Json} {value : Option Json}
    (h : decodeValue v = .ok value) : value = Json.kept (v.reach [("value", 0)]) := by
  obtain ⟨source, hsource, value, hread, rfl⟩ := Fields.read_of_record h
  rw [Json.reach_slot, Json.slot, hsource]
  exact (Fields.read_nullable.1 hread).kept

theorem MachineSpec.providerValue_of_decode {v : Json} {s : MachineSpec} (h : decode v = .ok s) :
    s.providerValue = Json.kept (v.reach [("providerSpec", 1), ("value", 0)]) := by
  obtain ⟨source, hsource, h⟩ := Fields.read_of_record h
  simp only [Fields.read_seq, Fields.read_map] at h
  obtain ⟨providerId, -, providerValue, hread, rfl⟩ := h
  exact (Fields.read_optional.1 hread).kept_reach (f := id) hsource
    (fun hnone => (Option.some.inj hnone).symm) fun u hu => value_of_decodeValue hu

theorem MachineStatus.providerStatus_of_decode {v : Json} {s : MachineStatus}
    (h : decode v = .ok s) : s.providerStatus = Json.kept (v.reach [("providerStatus", 1)]) := by
  obtain ⟨source, hsource, h⟩ := Fields.read_of_record h
  simp only [Fields.read_seq, Fields.read_map] at h
  obtain ⟨addresses, -, providerStatus, hread, phase, -, errorReason, -, errorMessage, -, rfl⟩ := h
  rw [Json.reach_slot, Json.slot, hsource]
  exact (Fields.read_nullable.1 hread).kept

theorem Machine.providerValue_of_decode {v : Json} {m : Machine} (h : decode v = .ok m) :
    m.spec.providerValue =
      Json.kept (v.reach [("spec", 1), ("providerSpec", 1), ("value", 0)]) := by
  obtain ⟨source, hsource, h⟩ := Fields.read_of_record h
  simp only [Fields.read_seq, Fields.read_map] at h
  obtain ⟨metadata, -, spec, hread, status, -, rfl⟩ := h
  exact (Fields.read_required.1 hread).kept_reach (f := MachineSpec.providerValue) hsource
    (by rintro ⟨⟩) fun u hu => MachineSpec.providerValue_of_decode hu

theorem Machine.providerStatus_of_decode {v : Json} {m : Machine} (h : decode v = .ok m) :
    m.status.bind MachineStatus.providerStatus =
      Json.kept (v.reach [("status", 2), ("providerStatus", 1)]) := by
  obtain ⟨source, hsource, h⟩ := Fields.read_of_record h
  simp only [Fields.read_seq, Fields.read_map] at h
  obtain ⟨metadata, -, spec, -, status, hread, rfl⟩ := h
  refine (Fields.read_slot.1 hread).kept_reach (f := (·.bind MachineStatus.providerStatus)) hsource
    (fun hnone => ?_) fun u hu => ?_
  -- An array may not leave out the status, so only an object can be without it.
  · cases source with
    | members => exact Option.some.inj hnone ▸ rfl
    | elements => cases hnone
  · rcases Decoder.nullable_eq.1 hu with ⟨rfl, rfl⟩ | ⟨-, s, hs, rfl⟩
    · rfl
    · exact MachineStatus.providerStatus_of_decode hs

theorem MachineSetSpec.value_of_decodeTemplate {v : Json} {s : MachineSpec}
    (h : decodeTemplate v = .ok s) :
    s.providerValue = Json.kept (v.reach [("spec", 0), ("providerSpec", 1), ("value", 0)]) := by
  obtain ⟨source, hsource, s, hread, rfl⟩ := Fields.read_of_record h
  exact (Fields.read_optional.1 hread).kept_reach (f := MachineSpec.providerValue) hsource
    (fun hnone => Option.some.inj hnone ▸ rfl) fun u hu => MachineSpec.providerValue_of_decode hu

theorem MachineSetSpec.providerValue_of_decode {v : Json} {s : MachineSetSpec}
    (h : decode v = .ok s) : s.template.providerValue =
      Json.kept (v.reach [("template", 1), ("spec", 0), ("providerSpec", 1), ("value", 0)]) := by
  obtain ⟨source, hsource, h⟩ := Fields.read_of_record h
  simp only [Fields.read_seq, Fields.read_map] at h
  obtain ⟨replicas, -, template, hread, rfl⟩ := h
  exact (Fields.read_optional.1 hread).kept_reach (f := MachineSpec.providerValue) hsource
    (fun hnone => Option.some.inj hnone ▸ rfl) fun u hu => value_of_decodeTemplate hu

theorem MachineSet.providerValue_of_decode {v : Json} {s : MachineSet} (h : decode v = .ok s) :
    s.spec.template.providerValue = Json.kept
      (v.reach [("spec", 1), ("template", 1), ("spec", 0), ("providerSpec", 1), ("value", 0)]) := by
  obtain ⟨source, hsource, h⟩ := Fields.read_of_record h
  simp only [Fields.read_seq, Fields.read_map] at h
  obtain ⟨metadata, -, spec, hread, rfl⟩ := h
  exact (Fields.read_required.1 hread).kept_reach (f := fun s => s.template.providerValue) hsource
    (by rintro ⟨⟩) fun u hu => MachineSetSpec.providerValue_of_decode hu

theorem at?_record {ms : List (String × Option Json)} (hn : (ms.map (·.1)).Nodup) {k : String}
    {path : Json.Path} :
    (Json.record ms).at? (.key k :: path) = (ms.lookup k).join.bind (·.at? path) :=
  congrArg (·.bind (·.at? path)) (Json.get?_record hn)

theorem MachineSpec.at?_value (s : MachineSpec) :
    s.toJson.at? [.key "providerSpec", .key "value"] = s.providerValue := by
  rw [toJson, at?_record (by simp)]
  simp only [List.lookup_cons, beq_self_eq_true, String.reduceBEq, Option.join_some,
    Option.bind_some]
  rw [at?_record (by simp)]
  simp only [List.lookup_cons, beq_self_eq_true, Option.join_some, Json.at?, Option.bind_fun_some]

theorem MachineStatus.at?_providerStatus (s : MachineStatus) :
    s.toJson.at? [.key "providerStatus"] = s.providerStatus := by
  rw [toJson, at?_record (by simp)]
  simp only [List.lookup_cons, beq_self_eq_true, String.reduceBEq, Option.join_some, Json.at?,
    Option.bind_fun_some]

theorem Machine.at?_value (m : Machine) :
    m.toJson.at? [.key "spec", .key "providerSpec", .key "value"] = m.spec.providerValue := by
  rw [toJson, at?_record (by simp), ← MachineSpec.at?_value]
  simp only [List.lookup_cons, beq_self_eq_true, String.reduceBEq, Option.join_some,
    Option.bind_some]

theorem Machine.at?_providerStatus (m : Machine) :
    m.toJson.at? [.key "status", .key "providerStatus"] =
      m.status.bind MachineStatus.providerStatus := by
  rw [toJson, at?_record (by simp)]
  simp only [List.lookup_cons, beq_self_eq_true, String.reduceBEq, Option.join_some]
  cases m.status with
  | none => rfl
  | some s => exact s.at?_providerStatus

theorem MachineSet.at?_value (s : MachineSet) :
    s.toJson.at? [.key "spec", .key "template", .key "spec", .key "providerSpec", .key "value"] =
      s.spec.template.providerValue := by
  rw [toJson, at?_record (by simp), ← MachineSpec.at?_value]
  simp only [List.lookup_cons, beq_self_eq_true, String.reduceBEq, Option.join_some,
    Option.bind_some]
  rw [MachineSetSpec.toJson, at?_record (by simp)]
  simp only [List.lookup_cons, beq_self_eq_true, String.reduceBEq, Option.join_some,
    Option.bind_some]
  rw [at?_record (by simp)]
  simp only [List.lookup_cons, beq_self_eq_true, Option.join_some, Option.bind_some]

/-! ### Re-encoding -/

open Cloud (GroupRequest InterfaceRequest Server ServerGroup ServerRequest VolumeRequest)

/-- Whatever a model was read from, an object or an array, with fields left out or unknown ones
beside them, what is written of it is read as the same model; machines and machine sets are written
the same again, and their opaque documents are as they were found, null apart. -/
theorem wire_models_stable :
    (∀ v s, Server.decode v = .ok s → Server.decode s.toJson = .ok s) ∧
    (∀ v g, ServerGroup.decode v = .ok g → ServerGroup.decode g.toJson = .ok g) ∧
    (∀ v r, ServerRequest.decode v = .ok r →
      ServerRequest.decode r.toJson = .ok r ∧ ServerRequest.decode r.written = .ok r) ∧
    (∀ v i, InterfaceRequest.decode v = .ok i →
      InterfaceRequest.decode i.written = .ok i ∧
      InterfaceRequest.decode i.written.canonical = .ok i) ∧
    (∀ v r, GroupRequest.decode v = .ok r → GroupRequest.decode r.toJson = .ok r) ∧
    (∀ v r, VolumeRequest.decode v = .ok r → VolumeRequest.decode r.toJson = .ok r) ∧
    (∀ v a, MachineAddress.decode v = .ok a → MachineAddress.decode a.toJson = .ok a) ∧
    (∀ v m, Machine.decode v = .ok m →
      (∃ n, Machine.decode m.toJson = .ok n ∧ n.toJson = m.toJson) ∧
      m.toJson.at? [.key "spec", .key "providerSpec", .key "value"] =
        Json.kept (v.reach [("spec", 1), ("providerSpec", 1), ("value", 0)]) ∧
      m.toJson.at? [.key "status", .key "providerStatus"] =
        Json.kept (v.reach [("status", 2), ("providerStatus", 1)])) ∧
    ∀ v s, MachineSet.decode v = .ok s →
      (∃ t, MachineSet.decode s.toJson = .ok t ∧ t.toJson = s.toJson) ∧
      s.toJson.at? [.key "spec", .key "template", .key "spec", .key "providerSpec", .key "value"] =
        Json.kept
          (v.reach [("spec", 1), ("template", 1), ("spec", 0), ("providerSpec", 1),
            ("value", 0)]) := by
  refine ⟨fun v s h => Server.stable s ⟨v, h⟩, fun _ g _ => g.decode_toJson,
    fun v r h => ⟨ServerRequest.stable r ⟨v, h⟩, ServerRequest.stable_written r ⟨v, h⟩⟩,
    fun _ i _ => ⟨i.decode_written, InterfaceRequest.orderless _ _ i.decode_written⟩,
    fun _ r _ => r.decode_toJson, fun _ r _ => r.decode_toJson, fun _ a _ => a.decode_toJson,
    fun v m h => ⟨⟨m.toSecond, Machine.settles m ⟨v, h⟩, m.toJson_toSecond⟩, ?_, ?_⟩,
    fun v s h => ⟨⟨s.toSecond, MachineSet.settles s ⟨v, h⟩, s.toJson_toSecond⟩, ?_⟩⟩
  · exact m.at?_value.trans (Machine.providerValue_of_decode h)
  · exact m.at?_providerStatus.trans (Machine.providerStatus_of_decode h)
  · exact s.at?_value.trans (MachineSet.providerValue_of_decode h)

/-- A machine by position, with a time within the leap second at the end of 2016, a payload that is
null and a status with members out of order. -/
def positionalMachine : Json :=
  .array [.object [("creationTimestamp", .string "2016-12-31T23:59:60.5Z"),
    ("name", .string "app")],
    .array [.null, .array [.null]],
    .object [("nodeRef", .null), ("providerStatus", .object [("b", .null), ("a", .nat 1)])]]

theorem wire_models_stable_positional :
    (∃ s, Server.decode (.array [.string "href", .string "uuid"]) = .ok s ∧ s.uuid = "uuid" ∧
      Server.decode s.toJson = .ok s) ∧
    (∃ g, ServerGroup.decode (.object [("unknown", .null)]) = .ok g ∧
      ServerGroup.decode g.toJson = .ok g) ∧
    (∃ r,
      ServerRequest.decode (.array [.string "name", .string "flavor", .string "image"]) = .ok r ∧
      ServerRequest.decode r.toJson = .ok r) ∧
    (∃ i, InterfaceRequest.decode (.object [("addresses", .array [])]) = .ok i ∧
      i.addresses = some [] ∧ InterfaceRequest.decode i.written = .ok i) ∧
    (∃ r, GroupRequest.decode (.array [.string "name", .string "type", .string "zone"]) = .ok r ∧
      GroupRequest.decode r.toJson = .ok r) ∧
    (∃ r, VolumeRequest.decode (.array [.object []]) = .ok r ∧
      VolumeRequest.decode r.toJson = .ok r) ∧
    (∃ a, MachineAddress.decode (.array [.string "Hostname", .string "app"]) = .ok a ∧
      MachineAddress.decode a.toJson = .ok a) ∧
    (∃ m n, Machine.decode positionalMachine = .ok m ∧ Machine.decode m.toJson = .ok n ∧
      n.toJson = m.toJson ∧
      m.toJson.at? [.key "spec", .key "providerSpec", .key "value"] = none ∧
      m.toJson.at? [.key "status", .key "providerStatus"] =
        some (.object [("a", .nat 1), ("b", .null)])) ∧
    ∃ s t, MachineSet.decode (.array [.object [], .array []]) = .ok s ∧
      MachineSet.decode s.toJson = .ok t ∧ t.toJson = s.toJson := by
  obtain ⟨hserver, hgroup, hrequest, hinterface, hgroupRequest, hvolume, haddress, hmachine,
    hset⟩ := wire_models_stable
  have hpositional : ∃ m, Machine.decode positionalMachine = .ok m := ⟨_, rfl⟩
  obtain ⟨m, hm⟩ := hpositional
  obtain ⟨⟨n, hn, hnm⟩, hvalue, hstatus⟩ := hmachine _ m hm
  have hempty : ∃ s, MachineSet.decode (.array [.object [], .array []]) = .ok s := ⟨_, rfl⟩
  obtain ⟨s, hs⟩ := hempty
  obtain ⟨⟨t, ht, hts⟩, -⟩ := hset _ s hs
  refine ⟨⟨_, rfl, rfl, ?_⟩, ⟨_, rfl, ?_⟩, ⟨_, rfl, ?_⟩, ⟨_, rfl, rfl, ?_⟩, ⟨_, rfl, ?_⟩,
    ⟨_, rfl, ?_⟩, ⟨_, rfl, ?_⟩, ⟨m, n, hm, hn, hnm, hvalue, hstatus⟩, ⟨s, t, hs, ht, hts⟩⟩
  · exact hserver (.array [.string "href", .string "uuid"]) _ rfl
  · exact hgroup (.object [("unknown", .null)]) _ rfl
  · exact (hrequest (.array [.string "name", .string "flavor", .string "image"]) _ rfl).1
  · exact (hinterface (.object [("addresses", .array [])]) _ rfl).1
  · exact hgroupRequest (.array [.string "name", .string "type", .string "zone"]) _ rfl
  · exact hvolume (.array [.object []]) _ rfl
  · exact haddress (.array [.string "Hostname", .string "app"]) _ rfl

end MachineProvider
