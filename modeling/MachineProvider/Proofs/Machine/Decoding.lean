import MachineProvider.Actuator.Mapping
import MachineProvider.Proofs.Json.Patch
import MachineProvider.Proofs.Json.Reading

/-! How the parts of a machine are read, and what is read after a patch of some of their fields. -/
namespace MachineProvider

open Json (Decoder Fields)
open Json.Fields (Holds)
open Kubernetes (Metadata)

variable {ms rs : Entries Json}

namespace Kubernetes.Metadata

theorem decode_object (ho : ms.Ordered) {m : Metadata} :
    decode (.object ms) = .ok m ↔
      Holds "annotations" (Decoder.nullable (.map .text)) (some none) ms m.annotations ∧
      Holds "creationTimestamp" (Decoder.nullable timestamp) (some none) ms m.creationTimestamp ∧
      Holds "deletionGracePeriodSeconds" (Decoder.nullable .i64) (some none) ms
        m.deletionGracePeriodSeconds ∧
      Holds "deletionTimestamp" (Decoder.nullable timestamp) (some none) ms m.deletionTimestamp ∧
      Holds "finalizers" (Decoder.nullable (.list .text)) (some none) ms m.finalizers ∧
      Holds "generateName" (Decoder.nullable .text) (some none) ms m.generateName ∧
      Holds "generation" (Decoder.nullable .i64) (some none) ms m.generation ∧
      Holds "labels" (Decoder.nullable (.map .text)) (some none) ms m.labels ∧
      Holds "managedFields" (Decoder.nullable (.list ManagedFields.decode)) (some none) ms
        m.managedFields ∧
      Holds "name" (Decoder.nullable .text) (some none) ms m.name ∧
      Holds "namespace" (Decoder.nullable .text) (some none) ms m.namespace_ ∧
      Holds "ownerReferences" (Decoder.nullable (.list OwnerReference.decode)) (some none) ms
        m.ownerReferences ∧
      Holds "resourceVersion" (Decoder.nullable .text) (some none) ms m.resourceVersion ∧
      Holds "selfLink" (Decoder.nullable .text) (some none) ms m.selfLink ∧
      Holds "uid" (Decoder.nullable .text) (some none) ms m.uid := by
  simp only [decode, Fields.named_object, Fields.read_seq, Fields.read_map, Fields.nullable,
    Fields.optional, Fields.read_single ho]
  constructor
  · rintro ⟨_, h₁, _, h₂, _, h₃, _, h₄, _, h₅, _, h₆, _, h₇, _, h₈, _, h₉, _, h₁₀, _, h₁₁, _, h₁₂,
      _, h₁₃, _, h₁₄, _, h₁₅, rfl⟩
    exact ⟨h₁, h₂, h₃, h₄, h₅, h₆, h₇, h₈, h₉, h₁₀, h₁₁, h₁₂, h₁₃, h₁₄, h₁₅⟩
  · rintro ⟨h₁, h₂, h₃, h₄, h₅, h₆, h₇, h₈, h₉, h₁₀, h₁₁, h₁₂, h₁₃, h₁₄, h₁₅⟩
    exact ⟨_, h₁, _, h₂, _, h₃, _, h₄, _, h₅, _, h₆, _, h₇, _, h₈, _, h₉, _, h₁₀, _, h₁₁, _, h₁₂,
      _, h₁₃, _, h₁₄, _, h₁₅, rfl⟩

variable {m old : Metadata}

theorem decode_labels (h : decode (.object ms) = .ok m) (hms : ms.Ordered) (hrs : rs.Ordered)
    {labels : Option (StringMap String)}
    (hl : Holds "labels" (Decoder.nullable (.map .text)) (some none) rs labels)
    (hfind : ∀ k, k ≠ "labels" → rs.find? k = ms.find? k) :
    decode (.object rs) = .ok { m with labels } := by
  rw [decode_object hms] at h
  rw [decode_object hrs]
  simp_all [Holds]

theorem decode_annotations (h : decode (.object ms) = .ok m) (hms : ms.Ordered) (hrs : rs.Ordered)
    {annotations : Option (StringMap String)}
    (hl : Holds "annotations" (Decoder.nullable (.map .text)) (some none) rs annotations)
    (hfind : ∀ k, k ≠ "annotations" → rs.find? k = ms.find? k) :
    decode (.object rs) = .ok { m with annotations } := by
  rw [decode_object hms] at h
  rw [decode_object hrs]
  simp_all [Holds]

theorem decode_finalizers (h : decode (.object ms) = .ok m) (hms : ms.Ordered) (hrs : rs.Ordered)
    {finalizers : Option (List String)}
    (hl : Holds "finalizers" (Decoder.nullable (.list .text)) (some none) rs finalizers)
    (hfind : ∀ k, k ≠ "finalizers" → rs.find? k = ms.find? k) :
    decode (.object rs) = .ok { m with finalizers } := by
  rw [decode_object hms] at h
  rw [decode_object hrs]
  simp_all [Holds]

theorem decode_deletionTimestamp (h : decode (.object ms) = .ok m) (hms : ms.Ordered)
    (hrs : rs.Ordered) {deletionTimestamp : Option Timestamp}
    (hl : Holds "deletionTimestamp" (Decoder.nullable timestamp) (some none) rs deletionTimestamp)
    (hfind : ∀ k, k ≠ "deletionTimestamp" → rs.find? k = ms.find? k) :
    decode (.object rs) = .ok { m with deletionTimestamp } := by
  rw [decode_object hms] at h
  rw [decode_object hrs]
  simp_all [Holds]

theorem get?_toJson_labels (m : Metadata) (labels : Option (StringMap String)) {k : String}
    (hk : k ≠ "labels") : (toJson { m with labels }).get? k = m.toJson.get? k := by
  have hbeq : (k == "labels") = false := beq_eq_false_iff_ne.2 hk
  unfold toJson
  rw [Json.get?_record (by simp), Json.get?_record (by simp)]
  simp only [List.lookup_cons, List.lookup_nil, hbeq]

theorem patched_labels (hm : decode (.object ms) = .ok m) (hc : (Json.object ms).Canonical)
    (hold : old.labels = m.labels) (labels : StringMap String) :
    ∃ rs : Entries Json,
      Json.patched (.object ms) old.toJson (toJson { old with labels := some labels }) =
        .object rs ∧
      (Json.object rs).Canonical ∧
      decode (.object rs) = .ok { m with labels := some labels } := by
  have ho := hc.ordered
  have hget : old.toJson.get? "labels" = m.labels.map .ofStrings := by
    simp [toJson, Json.get?_record, List.lookup_cons, hold]
  have hget' : (toJson { old with labels := some labels }).get? "labels" =
      some (.ofStrings labels) := by
    simp [toJson, Json.get?_record, List.lookup_cons]
  have hlabels : Json.mergeMember (ms.find? "labels") (Json.change? (old.toJson.get? "labels")
      ((toJson { old with labels := some labels }).get? "labels")) = some (.ofStrings labels) := by
    have hraw := ((decode_object ho).1 hm).2.2.2.2.2.2.2.1.raw_texts hc
    rw [hget, hget', Json.mergeMember_ofStrings hraw]
    intro v hv
    obtain ⟨t, -, rfl⟩ := Option.map_eq_some_iff.1 hv
    exact Json.canonical_ofStrings t
  obtain ⟨rs, hrs, hrc, hf, hrest⟩ := Json.patched_member ms old.toJson
    (toJson { old with labels := some labels }) rfl rfl (Entries.ordered_ofList _)
    (Entries.ordered_ofList _) hc (Json.canonical_ofStrings labels) hlabels
    fun k hk => get?_toJson_labels old (some labels) hk
  have hread := decode_labels hm ho hrc.ordered
    (.of_find? hf (by rintro ⟨⟩) (Decoder.map_text_ofStrings labels)) hrest
  exact ⟨rs, hrs, hrc, hread⟩

end Kubernetes.Metadata

namespace MachineSpec

variable {s old : MachineSpec}

theorem decode_object (ho : ms.Ordered) :
    decode (.object ms) = .ok s ↔
      Holds "providerID" (Decoder.nullable .text) (some none) ms s.providerId ∧
      Holds "providerSpec" decodeValue (some none) ms s.providerValue := by
  simp only [decode, Fields.record_object ho, Fields.read_seq, Fields.read_map, Fields.nullable,
    Fields.optional, Fields.read_single ho]
  constructor
  · rintro ⟨_, h₁, _, h₂, rfl⟩
    exact ⟨h₁, h₂⟩
  · rintro ⟨h₁, h₂⟩
    exact ⟨_, h₁, _, h₂, rfl⟩

theorem patched_providerId (hs : decode (.object ms) = .ok s) (hc : (Json.object ms).Canonical)
    (hold : old.providerId = s.providerId) (id : String) :
    ∃ rs : Entries Json,
      Json.patched (.object ms) old.toJson (toJson { old with providerId := some id }) =
        .object rs ∧
      (Json.object rs).Canonical ∧
      decode (.object rs) = .ok { s with providerId := some id } := by
  have ho := hc.ordered
  obtain ⟨hid, hvalue⟩ := (decode_object ho).1 hs
  have hget : old.toJson.get? "providerID" = s.providerId.map .string := by
    simp [toJson, Json.get?_record, hold]
  have hget' : (toJson { old with providerId := some id }).get? "providerID" =
      some (.string id) := by
    simp [toJson, Json.get?_record]
  have hother : ∀ k, k ≠ "providerID" →
      (toJson { old with providerId := some id }).get? k = old.toJson.get? k := by
    intro k hk
    have hbeq : (k == "providerID") = false := beq_eq_false_iff_ne.2 hk
    simp [toJson, Json.get?_record, List.lookup_cons, hbeq]
  obtain ⟨rs, hrs, hrc, hf, hrest⟩ := Json.patched_member ms old.toJson
    (toJson { old with providerId := some id }) rfl rfl (Entries.ordered_ofList _)
    (Entries.ordered_ofList _) hc (show (Json.string id).Canonical from trivial)
    (by rw [hget, hget', Json.mergeMember_string_new hid.raw_text]) hother
  refine ⟨rs, hrs, hrc, (decode_object hrc.ordered).2
    ⟨.of_find? hf (by rintro ⟨⟩) rfl, ?_⟩⟩
  simpa [Holds, hrest] using hvalue

end MachineSpec

namespace MachineAddress

theorem decode_toJson (a : MachineAddress) : decode a.toJson = .ok a := by
  have ho :=
    Entries.ordered_ofList [("type", Json.string a.type.text), ("address", .string a.address)]
  have htype : MachineAddressType.decode (.string a.type.text) = .ok a.type := by
    cases a.type <;> rfl
  refine (Fields.record_object ho).2 ?_
  simp only [Fields.read_seq, Fields.read_map, Fields.required, Fields.read_single ho]
  refine ⟨a.type, ?_, a.address, ?_, rfl⟩
  · simpa [Holds, Entries.find?_ofList] using htype
  · simp [Holds, Entries.find?_ofList, Decoder.text]

theorem toJson_eq (a : MachineAddress) :
    a.toJson = .ofStrings (.ofList [("type", a.type.text), ("address", a.address)]) :=
  Json.record_texts [("type", some a.type.text), ("address", some a.address)]

theorem eq_of_sameElements {as bs : List MachineAddress}
    (h : Json.sameElements (as.map toJson) (bs.map toJson) = true) : as = bs := by
  induction as generalizing bs with
  | nil => cases bs <;> simp_all [Json.sameElements]
  | cons a as ih =>
    cases bs with
    | nil => simp [Json.sameElements] at h
    | cons b bs =>
      simp only [List.map_cons, Json.sameElements, Bool.and_eq_true] at h
      obtain ⟨hab, hrest⟩ := h
      rw [toJson_eq b] at hab
      have hjson : a.toJson = b.toJson := (Json.eq_ofStrings_of_same hab).trans (toJson_eq b).symm
      have hab : a = b := by
        have hd := decode_toJson b
        rw [← hjson, decode_toJson a] at hd
        exact Except.ok.inj hd
      rw [hab, ih hrest]

/-- The addresses take the place of those that were read, however these are written. -/
theorem mergeMember_addresses {old new : List MachineAddress} (hc : (Json.object ms).Canonical)
    (hold : Holds "addresses" (.list decode) (some []) ms old) (hne : new ≠ []) :
    ∃ v, Json.mergeMember (ms.find? "addresses")
        (Json.change? (nonEmptyList toJson old) (nonEmptyList toJson new)) = some v ∧
      v.Canonical ∧ Decoder.list decode v = .ok new := by
  have hdecode : Decoder.list decode (.array (new.map toJson)) = .ok new :=
    Decoder.each_map decode_toJson new
  have hcan : (Json.array (new.map toJson)).Canonical := by
    refine Json.canonical_array_iff.2 fun e he => ?_
    obtain ⟨a, -, rfl⟩ := List.mem_map.1 he
    exact toJson_eq a ▸ Json.canonical_ofStrings _
  have hwritten : nonEmptyList toJson new = some (.array (new.map toJson)) := by
    simp [nonEmptyList, hne]
  rw [hwritten]
  cases old with
  | nil => exact ⟨_, rfl, hcan, hdecode⟩
  | cons a as =>
    change ∃ v, Json.mergeMember _ (Json.diff (.array ((a :: as).map toJson)) _) = some v ∧ _
    by_cases hsame : Json.same (.array ((a :: as).map toJson)) (.array (new.map toJson)) = true
    · rw [Json.diff_of_same hsame]
      obtain rfl := eq_of_sameElements hsame
      unfold Holds at hold
      cases hf : ms.find? "addresses" with
      | none => simp [hf] at hold
      | some v => exact ⟨v, rfl, Json.canonical_of_find? hc hf, by simpa [hf] using hold⟩
    · have hdiff : Json.diff (.array ((a :: as).map toJson)) (.array (new.map toJson)) =
          some (.array (new.map toJson)) := by
        rw [Json.diff, if_neg hsame]
        rintro _ _ ⟨⟩
      rw [hdiff]
      exact ⟨_, rfl, hcan, hdecode⟩

end MachineAddress

namespace MachineStatus

variable {s old : MachineStatus}

theorem decode_object (ho : ms.Ordered) :
    decode (.object ms) = .ok s ↔
      Holds "addresses" (.list MachineAddress.decode) (some []) ms s.addresses ∧
      Holds "providerStatus" (Decoder.nullable .any) (some none) ms s.providerStatus ∧
      Holds "phase" (Decoder.nullable .text) (some none) ms s.phase ∧
      Holds "errorReason" (Decoder.nullable .text) (some none) ms s.errorReason ∧
      Holds "errorMessage" (Decoder.nullable .text) (some none) ms s.errorMessage := by
  simp only [decode, Fields.record_object ho, Fields.read_seq, Fields.read_map, Fields.nullable,
    Fields.optional, Fields.read_single ho]
  constructor
  · rintro ⟨_, h₁, _, h₂, _, h₃, _, h₄, _, h₅, rfl⟩
    exact ⟨h₁, h₂, h₃, h₄, h₅⟩
  · rintro ⟨h₁, h₂, h₃, h₄, h₅⟩
    exact ⟨_, h₁, _, h₂, _, h₃, _, h₄, _, h₅, rfl⟩

theorem members_toJson_ne_nil (h : s.addresses ≠ []) : s.toJson.members ≠ [] := by
  intro hnil
  have hget : s.toJson.get? "addresses" = none := congrArg (Entries.find? "addresses") hnil
  simp [toJson, Json.get?_record, nonEmptyList, h] at hget

/-- Beside addresses and provider status, what is written of a machine stays as it was. -/
theorem get?_toJson_observed (s : MachineStatus) (addresses : List MachineAddress) (v : Option Json)
    {k : String} (hk : k ≠ "addresses") (hk' : k ≠ "providerStatus") :
    (toJson { s with addresses, providerStatus := v }).get? k = s.toJson.get? k := by
  have hbeq : (k == "addresses") = false := beq_eq_false_iff_ne.2 hk
  have hbeq' : (k == "providerStatus") = false := beq_eq_false_iff_ne.2 hk'
  simp [toJson, Json.get?_record, List.lookup_cons, hbeq, hbeq']

/-- What the provider says of the machine is written, whatever it has said before. -/
theorem mergeMember_observed (hc : (Json.object ms).Canonical)
    (h : Holds "providerStatus" (Decoder.nullable .any) (some none) ms s.providerStatus)
    (addresses : List MachineAddress) (observed : StringMap String) :
    Json.mergeMember (ms.find? "providerStatus") (Json.change? (s.toJson.get? "providerStatus")
      ((toJson { s with addresses, providerStatus := some (.ofStrings observed) }).get?
        "providerStatus")) = some (.ofStrings observed) := by
  have hget : s.toJson.get? "providerStatus" = s.providerStatus := by
    simp [toJson, Json.get?_record, List.lookup_cons]
  have hget' : (toJson { s with addresses, providerStatus := some (.ofStrings observed) }).get?
      "providerStatus" = some (.ofStrings observed) := by
    simp [toJson, Json.get?_record, List.lookup_cons]
  have hraw := h.raw_any hc
  rw [hget, hget', Json.mergeMember_ofStrings hraw]
  intro v hv
  rcases hraw with hraw | ⟨-, hraw⟩
  · exact Json.canonical_of_find? hc (hraw.trans hv)
  · simp [hraw] at hv

theorem patched_observed (hs : decode (.object ms) = .ok s) (hc : (Json.object ms).Canonical)
    {addresses : List MachineAddress} (hne : addresses ≠ []) (observed : StringMap String) :
    ∃ rs : Entries Json,
      Json.patched (.object ms) s.toJson
        (toJson { s with addresses, providerStatus := some (.ofStrings observed) }) = .object rs ∧
      (Json.object rs).Canonical ∧
      decode (.object rs) =
        .ok { s with addresses, providerStatus := some (.ofStrings observed) } := by
  have ho := hc.ordered
  obtain ⟨haddresses, hprovider, hphase, hreason, hmessage⟩ := (decode_object ho).1 hs
  obtain ⟨rs, hrs, hord, hfind⟩ := Json.find?_patched ms s.toJson
    (toJson { s with addresses, providerStatus := some (.ofStrings observed) }) rfl rfl
    (Entries.ordered_ofList _) (Entries.ordered_ofList _)
  obtain ⟨v, hv, hvc, hvd⟩ := MachineAddress.mergeMember_addresses hc haddresses hne
  have hwritten : rs.find? "addresses" = some v := by
    rw [hfind, ← hv]
    simp [toJson, Json.get?_record]
  have hobserved : rs.find? "providerStatus" = some (.ofStrings observed) :=
    (hfind _).trans (mergeMember_observed hc hprovider addresses observed)
  have hrest : ∀ k, k ≠ "addresses" → k ≠ "providerStatus" → rs.find? k = ms.find? k := by
    intro k hk hk'
    rw [hfind, get?_toJson_observed s addresses (some (.ofStrings observed)) hk hk']
    exact Json.mergeMember_self ..
  refine ⟨rs, hrs, Json.canonical_object_of_find? (hord ho) fun k u hu => ?_,
    (decode_object (hord ho)).2 ⟨?_, .of_find? hobserved (by rintro ⟨⟩) ?_, ?_⟩⟩
  · by_cases hk : k = "addresses"
    · obtain rfl : v = u := by simpa [hk, hwritten] using hu
      exact hvc
    · by_cases hk' : k = "providerStatus"
      · obtain rfl : Json.ofStrings observed = u := by simpa [hk', hobserved] using hu
        exact Json.canonical_ofStrings observed
      · exact Json.canonical_of_find? hc (hrest k hk hk' ▸ hu)
  · simpa [Holds, hwritten] using hvd
  · exact congrArg Except.ok (Json.canonical_ofStrings observed).canonical_eq
  · simp_all [Holds]

end MachineStatus
end MachineProvider
