import MachineProvider.Proofs.Machine.Decoding
import MachineProvider.Reconcile

/-! The document that holds a machine, and the machine it holds after each patch of a pass. -/
namespace MachineProvider.Machine

open Json (Decoder Fields)
open Json.Fields (Holds)
open Kubernetes (Metadata)

variable {ds ds' ms ss : Entries Json} {doc : Json} {m old : Machine}

theorem decode_object (ho : ds.Ordered) :
    decode (.object ds) = .ok m ↔
      Holds "metadata" Metadata.decode none ds m.metadata ∧
      Holds "spec" MachineSpec.decode none ds m.spec ∧
      Holds "status" (Decoder.nullable MachineStatus.decode) (some none) ds m.status := by
  simp only [decode, Fields.record_object ho, Fields.read_seq, Fields.read_map, Fields.required,
    Fields.nullableInPlace, Fields.read_single ho]
  constructor
  · rintro ⟨_, h₁, _, h₂, _, h₃, rfl⟩
    exact ⟨h₁, h₂, h₃⟩
  · rintro ⟨h₁, h₂, h₃⟩
    exact ⟨_, h₁, _, h₂, _, h₃, rfl⟩

/-- A document that is read as the machine. Its spec is an object, and its status is absent, null or
an object; what else it holds is open. -/
structure StoredIn (m : Machine) (doc : Json) : Prop where
  canonical : doc.Canonical
  object : ∃ ds : Entries Json, doc = .object ds
  spec : ∃ ss : Entries Json, doc.get? "spec" = some (.object ss)
  status : ∀ v, doc.get? "status" = some v → v = .null ∨ ∃ ss : Entries Json, v = .object ss
  decoded : decode doc = .ok m

namespace StoredIn

/-- A document holds one machine. -/
theorem unique (h : m.StoredIn doc) (h' : old.StoredIn doc) : m = old :=
  Except.ok.inj (h.decoded.symm.trans h'.decoded)

theorem metadata_object (h : m.StoredIn (.object ds)) :
    ∃ ms : Entries Json, ds.find? "metadata" = some (.object ms) ∧ (Json.object ms).Canonical ∧
      Metadata.decode (.object ms) = .ok m.metadata := by
  have hm := ((decode_object h.canonical.ordered).1 h.decoded).1
  unfold Holds at hm
  cases hf : ds.find? "metadata" with
  | none => simp [hf] at hm
  | some v =>
    rw [hf] at hm
    obtain ⟨ms, rfl⟩ := Fields.object_of_named hm
    exact ⟨ms, rfl, Json.canonical_of_find? h.canonical hf, hm⟩

theorem spec_object (h : m.StoredIn (.object ds)) :
    ∃ ss : Entries Json, ds.find? "spec" = some (.object ss) ∧ (Json.object ss).Canonical ∧
      MachineSpec.decode (.object ss) = .ok m.spec := by
  have hs := ((decode_object h.canonical.ordered).1 h.decoded).2.1
  obtain ⟨ss, hf⟩ : ∃ ss, ds.find? "spec" = some (.object ss) := h.spec
  unfold Holds at hs
  rw [hf] at hs
  exact ⟨ss, hf, Json.canonical_of_find? h.canonical hf, hs⟩

theorem status_object (h : m.StoredIn (.object ds)) :
    (ds.find? "status").getD .null = .null ∧ m.status = none ∨
      ∃ (ss : Entries Json) (s : MachineStatus), ds.find? "status" = some (.object ss) ∧
        m.status = some s ∧ MachineStatus.decode (.object ss) = .ok s := by
  have hs := ((decode_object h.canonical.ordered).1 h.decoded).2.2
  unfold Holds at hs
  cases hf : ds.find? "status" with
  | none =>
    rw [hf] at hs
    exact .inl ⟨rfl, (Option.some.inj hs).symm⟩
  | some v =>
    rw [hf] at hs
    rcases Decoder.nullable_eq.1 hs with ⟨rfl, hnone⟩ | ⟨hv, s, hd, hsome⟩
    · exact .inl ⟨rfl, hnone⟩
    · obtain ⟨ss, rfl⟩ := (h.status v hf).resolve_left hv
      exact .inr ⟨ss, s, rfl, hsome, hd⟩

/-- Other metadata and another spec in the same document. -/
theorem replace (h : m.StoredIn (.object ds)) (ho : ds'.Ordered) {metadata : Metadata}
    {spec : MachineSpec} (hm : ds'.find? "metadata" = some (.object ms))
    (hmc : (Json.object ms).Canonical) (hmd : Metadata.decode (.object ms) = .ok metadata)
    (hs : ds'.find? "spec" = some (.object ss)) (hsc : (Json.object ss).Canonical)
    (hsd : MachineSpec.decode (.object ss) = .ok spec)
    (hrest : ∀ k, k ≠ "metadata" → k ≠ "spec" → ds'.find? k = ds.find? k) :
    StoredIn { m with metadata, spec } (.object ds') := by
  have hstatus : ds'.find? "status" = ds.find? "status" := hrest _ (by decide) (by decide)
  have hread := (decode_object h.canonical.ordered).1 h.decoded
  refine ⟨Json.canonical_object_of_find? ho fun k v hv => ?_, ⟨ds', rfl⟩, ⟨ss, hs⟩, fun v hv => ?_,
    (decode_object ho).2 ⟨?_, ?_, ?_⟩⟩
  · by_cases hkm : k = "metadata"
    · obtain rfl : Json.object ms = v := by simpa [hkm, hm] using hv
      exact hmc
    · by_cases hks : k = "spec"
      · obtain rfl : Json.object ss = v := by simpa [hks, hs] using hv
        exact hsc
      · exact Json.canonical_of_find? h.canonical (hrest k hkm hks ▸ hv)
  · exact h.status v (hstatus.symm.trans hv)
  · simpa [Holds, hm] using hmd
  · simpa [Holds, hs] using hsd
  · simpa [Holds, hstatus] using hread.2.2

/-- Another status in the same document. -/
theorem replaceStatus (h : m.StoredIn (.object ds)) (ho : ds'.Ordered) {status : MachineStatus}
    (hs : ds'.find? "status" = some (.object ss)) (hsc : (Json.object ss).Canonical)
    (hsd : MachineStatus.decode (.object ss) = .ok status)
    (hrest : ∀ k, k ≠ "status" → ds'.find? k = ds.find? k) :
    StoredIn { m with status := some status } (.object ds') := by
  have hmeta : ds'.find? "metadata" = ds.find? "metadata" := hrest _ (by decide)
  have hspec : ds'.find? "spec" = ds.find? "spec" := hrest _ (by decide)
  have hread := (decode_object h.canonical.ordered).1 h.decoded
  obtain ⟨ss', hss', -⟩ := h.spec_object
  refine ⟨Json.canonical_of_written h.canonical ho hsc hs hrest, ⟨ds', rfl⟩,
    ⟨ss', hspec.trans hss'⟩, fun v hv => ?_, (decode_object ho).2 ⟨?_, ?_, ?_⟩⟩
  · exact .inr ⟨ss, Option.some.inj (hv.symm.trans hs)⟩
  · simpa [Holds, hmeta] using hread.1
  · simpa [Holds, hspec] using hread.2.1
  · exact .of_find? hs (by rintro ⟨⟩) hsd

end StoredIn

/-- What a machine is written as beside its status. -/
def mainMembers (m : Machine) : Entries Json := Entries.erase "status" m.toJson.members

/-- The status a machine is written with. -/
def writtenStatus (m : Machine) : Json := (m.status.map MachineStatus.toJson).getD .null

/-- The observed status holds texts only, so it has no null to lose. -/
theorem observedStatus_toRaw (server : Cloud.Server) :
    ∃ t, (observedStatus server).toRaw = .ofStrings t := by
  have htext : ∀ s, nonEmptyText s = (if s.isEmpty then none else some s).map Json.string := by
    intro s
    unfold nonEmptyText
    split <;> rfl
  let orNone (s : String) : Option String := if s.isEmpty then none else some s
  refine ⟨_, Eq.trans ?_ (Json.record_texts [("instanceId", orNone server.uuid),
    ("status", orNone server.status), ("conditions", none),
    ("apiVersion", some PayloadVersion.latest.text), ("kind", some ProviderStatus.kind)])⟩
  simp [ProviderStatus.toRaw, Payload.close, ProviderStatus.members, observedStatus, htext,
    nonEmptyList, orNone]

theorem ordered_mainMembers (m : Machine) : m.mainMembers.Ordered :=
  (Entries.ordered_ofList _).erase

theorem find?_mainMembers (m : Machine) {k : String} :
    m.mainMembers.find? k = if k = "status" then none else m.toJson.get? k := Entries.find?_erase

theorem find?_mainMembers_metadata (m : Machine) :
    m.mainMembers.find? "metadata" = some m.metadata.toJson := by
  simp [find?_mainMembers, toJson, Json.get?_record, List.lookup_cons]

theorem find?_mainMembers_spec (m : Machine) :
    m.mainMembers.find? "spec" = some m.spec.toJson := by
  simp [find?_mainMembers, toJson, Json.get?_record, List.lookup_cons]

/-- Beside metadata and spec all machines are written alike. -/
theorem find?_mainMembers_rest (m n : Machine) {k : String} (hkm : k ≠ "metadata")
    (hks : k ≠ "spec") : m.mainMembers.find? k = n.mainMembers.find? k := by
  have hm : (k == "metadata") = false := beq_eq_false_iff_ne.2 hkm
  have hs : (k == "spec") = false := beq_eq_false_iff_ne.2 hks
  by_cases hk : k = "status"
  · simp [find?_mainMembers, hk]
  · have hb : (k == "status") = false := beq_eq_false_iff_ne.2 hk
    simp [find?_mainMembers, toJson, Json.get?_record, List.lookup_cons, hm, hs, hb]

theorem patches_eq (before after : Machine) :
    before.patches after =
      (Json.diff (.object before.mainMembers) (.object after.mainMembers),
        (Json.diff before.writtenStatus after.writtenStatus).map fun s =>
          .record [("status", some s)]) := by
  have hstatus : ∀ m : Machine, (m.toJson.get? "status").getD .null = m.writtenStatus := by
    intro m
    simp [toJson, writtenStatus, Json.get?_record, List.lookup_cons]
  rw [← hstatus, ← hstatus]
  rfl

namespace StoredIn

/-- The main patch for a server changes labels and provider identifier of what is stored, whatever
else changed there since the machine was read. -/
theorem mergeMain (h : m.StoredIn doc) (hl : old.metadata.labels = m.metadata.labels)
    (hid : old.spec.providerId = m.spec.providerId) (server : Cloud.Server) :
    StoredIn
      { m with
        metadata := { m.metadata with labels := (old.withServer server).metadata.labels }
        spec := { m.spec with providerId := some (providerId server.uuid) } }
      (doc.mergeIfAny (old.patches (old.withServer server)).1) := by
  obtain ⟨ds, rfl⟩ := h.object
  have ho := h.canonical.ordered
  obtain ⟨ms, hms, hmc, hmd⟩ := h.metadata_object
  obtain ⟨ss, hss, hsc, hsd⟩ := h.spec_object
  obtain ⟨ms', hms', hmc', hmd'⟩ := Kubernetes.Metadata.patched_labels hmd hmc hl
    ((old.withServer server).labels)
  obtain ⟨ss', hss', hsc', hsd'⟩ :=
    MachineSpec.patched_providerId hsd hsc hid (providerId server.uuid)
  obtain ⟨rs, hrs, hord, hfind⟩ := Json.patched_object ds (ordered_mainMembers old)
    (ordered_mainMembers (old.withServer server))
  rw [patches_eq]
  change StoredIn _ (Json.patched (.object ds) _ _)
  rw [hrs]
  refine h.replace (hord ho) ?_ hmc' hmd' ?_ hsc' hsd' fun k hkm hks => ?_
  · rw [hfind, hms, find?_mainMembers_metadata, find?_mainMembers_metadata, ← hms']
    exact Json.mergeMember_object (Entries.ordered_ofList _) (Entries.ordered_ofList _)
  · rw [hfind, hss, find?_mainMembers_spec, find?_mainMembers_spec, ← hss']
    exact Json.mergeMember_object (Entries.ordered_ofList _) (Entries.ordered_ofList _)
  · rw [hfind, find?_mainMembers_rest (old.withServer server) old hkm hks]
    exact Json.mergeMember_self ..

/-- The patch from one status to that of a server leaves that of the server, whether or not there is
one yet. -/
theorem patched_status (h : m.StoredIn (.object ds)) (hs : old.status = m.status)
    (server : Cloud.Server) :
    ∃ (rs : Entries Json) (status : MachineStatus),
      (old.withServer server).status = some status ∧
      Json.patched ((ds.find? "status").getD .null) old.writtenStatus
        (old.withServer server).writtenStatus = .object rs ∧
      (Json.object rs).Canonical ∧ MachineStatus.decode (.object rs) = .ok status := by
  obtain ⟨observed, hobserved⟩ := observedStatus_toRaw server
  have hne : machineAddresses server ≠ [] := by simp [machineAddresses]
  have hafter : (old.withServer server).status = some { m.status.getD default with
      addresses := machineAddresses server, providerStatus := some (.ofStrings observed) } := by
    rw [← hobserved, ← hs]
    rfl
  have hwritten : (old.withServer server).writtenStatus =
      MachineStatus.toJson { m.status.getD default with
        addresses := machineAddresses server, providerStatus := some (.ofStrings observed) } := by
    rw [writtenStatus, hafter]
    rfl
  rw [hafter, hwritten, writtenStatus, hs]
  rcases h.status_object with ⟨hraw, hnone⟩ | ⟨ss, s, hraw, hsome, hd⟩
  · -- The first status is patched as if there had been an empty one.
    obtain ⟨rs, hrs, hrc, hrd⟩ := MachineStatus.patched_observed
      (show MachineStatus.decode (.object []) = .ok default from rfl)
      (Json.canonical_object_iff.2 ⟨.nil, by simp⟩) hne observed
    refine ⟨rs, _, rfl, ?_, hrc, by rw [hnone]; exact hrd⟩
    rw [hraw, hnone, ← hrs]
    exact Json.patched_null (Entries.ordered_ofList _) (MachineStatus.members_toJson_ne_nil hne)
  · have hsc := Json.canonical_of_find? h.canonical hraw
    obtain ⟨rs, hrs, hrc, hrd⟩ := MachineStatus.patched_observed hd hsc hne observed
    refine ⟨rs, _, rfl, ?_, hrc, by rw [hsome]; exact hrd⟩
    rw [hraw, hsome]
    exact hrs

/-- The status patch for a server changes the status of what is stored and nothing else. -/
theorem mergeStatus (h : m.StoredIn doc) (hs : old.status = m.status) (server : Cloud.Server) :
    StoredIn { m with status := (old.withServer server).status }
      (doc.mergeIfAny (old.patches (old.withServer server)).2) := by
  obtain ⟨ds, rfl⟩ := h.object
  have ho := h.canonical.ordered
  obtain ⟨rs, status, hstatus, hrs, hrc, hrd⟩ := h.patched_status hs server
  rw [hstatus, patches_eq]
  unfold Json.patched at hrs
  cases hd : Json.diff old.writtenStatus (old.withServer server).writtenStatus with
  | none =>
    cases hf : ds.find? "status" with
    | none => rw [hd, hf] at hrs; cases hrs
    | some v =>
      rw [hd, hf] at hrs
      obtain rfl : v = .object rs := hrs
      exact h.replaceStatus ho hf hrc hrd fun k hk => rfl
  | some patch =>
    rw [hd] at hrs
    have hmerge : Json.merge (.object ds) (.record [("status", some patch)]) =
        .object (ds.insert "status" (.object rs)) := by
      cases patch with
      | null => cases hrs
      | _ => exact congrArg (fun v => Json.object (ds.insert "status" v)) hrs
    change StoredIn _ (Json.merge (.object ds) (.record [("status", some patch)]))
    rw [hmerge]
    refine h.replaceStatus ho.insert ?_ hrc hrd fun k hk => ?_
    · simp [Entries.find?_insert]
    · simp [Entries.find?_insert, hk]

/-- Both patches for a server leave the machine with that server on it. -/
theorem withServer (h : m.StoredIn doc) (server : Cloud.Server) :
    (m.withServer server).StoredIn
      ((doc.mergeIfAny (m.patches (m.withServer server)).1).mergeIfAny
        (m.patches (m.withServer server)).2) := by
  have hmain := h.mergeMain (show m.metadata.labels = _ from rfl) rfl server
  exact hmain.mergeStatus (show m.status = _ from rfl) server

/-- A patch of one field of the metadata, given how the metadata is read with that field. -/
theorem mergeMetadata (h : m.StoredIn doc) {name : String} {v : Json} {metadata : Metadata}
    (hv : v ≠ .null) (hleaf : ∀ t, Json.merge t v = v) (hcan : v.Canonical)
    (hread : ∀ ms rs : Entries Json, ms.Ordered → Metadata.decode (.object ms) = .ok m.metadata →
      rs.Ordered → rs.find? name = some v → (∀ k, k ≠ name → rs.find? k = ms.find? k) →
      Metadata.decode (.object rs) = .ok metadata) :
    StoredIn { m with metadata }
      (doc.merge (.record [("metadata", some (.record [(name, some v)]))])) := by
  obtain ⟨ds, rfl⟩ := h.object
  have ho := h.canonical.ordered
  obtain ⟨ms, hms, hmc, hmd⟩ := h.metadata_object
  obtain ⟨ss, hss, hsc, hsd⟩ := h.spec_object
  have hmo := hmc.ordered
  have hinner : Json.merge (.object ms) (.record [(name, some v)]) =
      .object (ms.insert name v) := by
    change Json.object (Json.mergeMembers ms [(name, v)]) = _
    cases v with
    | null => exact absurd rfl hv
    | _ => simp [Json.mergeMembers, hleaf]
  have hmerge : Json.merge (.object ds) (.record [("metadata", some (.record [(name, some v)]))]) =
      .object (ds.insert "metadata" (.object (ms.insert name v))) := by
    rw [← hinner]
    change Json.object (ds.insert "metadata" (((ds.find? "metadata").getD .null).merge _)) = _
    rw [hms]
    rfl
  have hmeta : (ds.insert "metadata" (.object (ms.insert name v))).find? "metadata" =
      some (.object (ms.insert name v)) := by simp [Entries.find?_insert]
  have hspec : (ds.insert "metadata" (.object (ms.insert name v))).find? "spec" =
      some (.object ss) := by simp [Entries.find?_insert, hss]
  have hwritten : (ms.insert name v).find? name = some v := by simp [Entries.find?_insert]
  have hrest : ∀ k, k ≠ name → (ms.insert name v).find? k = ms.find? k := by
    intro k hk
    simp [Entries.find?_insert, hk]
  rw [hmerge]
  refine h.replace ho.insert hmeta ?_ ?_ hspec hsc hsd fun k hk _ => by
    simp [Entries.find?_insert, hk]
  · exact Json.canonical_of_written hmc hmo.insert hcan hwritten hrest
  · exact hread ms _ hmo hmd hmo.insert hwritten hrest

theorem mergeFinalizers (h : m.StoredIn doc) (finalizers : List String) :
    StoredIn { m with metadata := { m.metadata with finalizers := some finalizers } }
      (doc.merge (finalizersPatch finalizers)) := by
  have hread : Decoder.list .text (.array (finalizers.map .string)) = .ok finalizers :=
    Decoder.each_map (fun s => (show Decoder.text (.string s) = .ok s from rfl)) finalizers
  refine h.mergeMetadata (by rintro ⟨⟩) (fun _ => rfl) (Json.canonical_array_iff.2 ?_)
    fun ms rs hms hmd hrs hf hrest =>
      Metadata.decode_finalizers hmd hms hrs (.of_find? hf (by rintro ⟨⟩) hread) hrest
  intro e he
  obtain ⟨s, -, rfl⟩ := List.mem_map.1 he
  trivial

end StoredIn

/-- The patch that marks a machine as deleted. -/
def deletionPatch (text : String) : Json :=
  .record [("metadata", some (.record [("deletionTimestamp", some (.string text))]))]

theorem StoredIn.mergeDeletion (h : m.StoredIn doc) {text : String} {t : Timestamp}
    (ht : Timestamp.parse text = .ok t) :
    StoredIn { m with metadata := { m.metadata with deletionTimestamp := some t } }
      (doc.merge (deletionPatch text)) := by
  have hread : Kubernetes.timestamp (.string text) = .ok t := by
    simp only [Kubernetes.timestamp, Json.mapError_eq_ok, ht]
  exact h.mergeMetadata (by rintro ⟨⟩) (fun _ => rfl) trivial fun ms rs hms hmd hrs hf hrest =>
    Metadata.decode_deletionTimestamp hmd hms hrs (.of_find? hf (by rintro ⟨⟩) hread) hrest

end MachineProvider.Machine
