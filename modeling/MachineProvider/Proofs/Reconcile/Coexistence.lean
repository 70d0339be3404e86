import MachineProvider.Proofs.Json.Paths
import MachineProvider.Proofs.Reconcile.Worlds
import MachineProvider.Proofs.Simulation.Healed

/-! Recording a server on a document that others write to as well: the patches are taken from a
machine read earlier, and the document may have become any other one since. -/
namespace MachineProvider

open Cloud (Server)
open Entries (find?)
open Json (Apart Path Roomy Within at? pathsUnder)
open Simulation (SentPatch World applied)

variable {m : Machine} {doc doc' doc'' : Json} {paths : List Path} {p q : Path}

/-- Between two documents, all is the same but at the given paths and below them, and what stands
above them can only have become an object. -/
def Json.LeftBut (paths : List Path) (doc doc' : Json) : Prop :=
  ∀ p, (∀ q ∈ paths, ¬ q <+: p) →
    doc'.at? p = doc.at? p ∨ (∃ q ∈ paths, p <+: q) ∧ ∃ ms, doc'.at? p = some (.object ms)

namespace Json.LeftBut

theorem refl (paths : List Path) (doc : Json) : LeftBut paths doc doc := fun _ _ => .inl rfl

theorem trans (h : LeftBut paths doc doc') (h' : LeftBut paths doc' doc'') :
    LeftBut paths doc doc'' := by
  intro p hp
  rcases h' p hp with heq | hobj
  · rw [heq]
    exact h p hp
  · exact .inr hobj

theorem apart (h : LeftBut paths doc doc') (hp : ∀ q ∈ paths, Apart p q) :
    doc'.at? p = doc.at? p := by
  rcases h p fun q hq => (hp q hq).2 with heq | ⟨⟨q, hq, hpq⟩, -⟩
  · exact heq
  · exact absurd hpq (hp q hq).1

theorem roomy (h : LeftBut paths doc doc') (hp : ∀ q ∈ paths, ¬ q <+: p) (hr : Roomy (doc.at? p)) :
    Roomy (doc'.at? p) := by
  rcases h p hp with heq | ⟨-, ms, hobj⟩
  · rwa [heq]
  · exact .inr (.inr ⟨ms, hobj⟩)

theorem merge {patch : Json} (hw : Within paths patch)
    (hroom : ∀ q ∈ paths, ∀ r, r <+: q → r ≠ q → Roomy (doc.at? r)) :
    LeftBut paths doc (doc.merge patch) :=
  fun _ hp => Json.at?_merge (o := some doc) hw hroom hp

section
variable {name field : String} {ds ms : Entries Json}

theorem within_field (v : Json) :
    Within [[.key name, .key field]] (.record [(name, some (.record [(field, some v)]))]) := by
  refine Json.within_of_find? (by simp) (Entries.ordered_ofList _) fun k w hw => ?_
  obtain ⟨rfl, rfl⟩ : name = k ∧ _ = w := by simpa [Entries.find?_ofList] using hw
  refine Json.within_of_find? (by simp [pathsUnder]) (Entries.ordered_ofList _) fun k w hw => ?_
  obtain ⟨rfl, -⟩ : field = k ∧ _ = w := by simpa [Entries.find?_ofList] using hw
  exact .here (by simp [pathsUnder])

/-- A patch of one field of an object leaves alone all but that field. -/
theorem merge_field (hms : find? name ds = some (.object ms)) (v : Json) :
    LeftBut [[.key name, .key field]] (.object ds)
      ((Json.object ds).merge (.record [(name, some (.record [(field, some v)]))])) := by
  refine .merge (within_field v) fun q hq p hp hne => ?_
  obtain rfl := List.mem_singleton.1 hq
  have habove : p = [] ∨ p = [.key name] := by
    rcases List.prefix_cons_iff.1 hp with rfl | ⟨q, rfl, hq⟩
    · exact .inl rfl
    · rcases List.prefix_cons_iff.1 hq with rfl | ⟨r, rfl, hr⟩
      · exact .inr rfl
      · exact absurd (by rw [List.prefix_nil.1 hr]) hne
  rcases habove with rfl | rfl
  · exact .inr (.inr ⟨ds, rfl⟩)
  · exact .inr (.inr ⟨ms, by rw [Json.at?_key, hms]; rfl⟩)

end

end Json.LeftBut

namespace Machine

/-- Where the main patch for a server writes. -/
def mainPaths : List Path :=
  [[.key "metadata", .key "labels", .key instanceTypeLabel],
    [.key "metadata", .key "labels", .key regionLabel],
    [.key "metadata", .key "labels", .key zoneLabel],
    [.key "spec", .key "providerID"]]

/-- Where the status patch for a server writes. -/
def statusPaths : List Path :=
  [[.key "status", .key "addresses"], [.key "status", .key "providerStatus"]]

/-- All that a server is recorded in. -/
def recordedPaths : List Path := mainPaths ++ statusPaths

/-- What other writers keep on the same document, the unknown aside. -/
def foreignPaths : List Path :=
  [[.key "metadata", .key "finalizers"], [.key "metadata", .key "annotations"],
    [.key "metadata", .key "labels", .key clusterIdLabel], [.key "spec", .key "providerSpec"],
    [.key "status", .key "phase"], [.key "status", .key "errorReason"],
    [.key "status", .key "errorMessage"]]

/-- The shape that every stored machine has, whatever is in it. -/
structure Shaped (doc : Json) : Prop where
  root : ∃ ds, doc = .object ds
  metadata : ∃ ms, doc.at? [.key "metadata"] = some (.object ms)
  labels : Roomy (doc.at? [.key "metadata", .key "labels"])
  spec : ∃ ss, doc.at? [.key "spec"] = some (.object ss)
  status : Roomy (doc.at? [.key "status"])

/-- Above the recorded paths there are the parts that every machine has. -/
theorem above_recorded (hq : q ∈ recordedPaths) (hp : p <+: q) (hne : p ≠ q) :
    p ∈ ([[], [.key "metadata"], [.key "metadata", .key "labels"], [.key "spec"], [.key "status"]] :
      List Path) := by
  have hall : ∀ q ∈ recordedPaths, ∀ n < 4, q.take n ≠ q → q.take n ∈
      ([[], [.key "metadata"], [.key "metadata", .key "labels"], [.key "spec"], [.key "status"]] :
        List Path) := by decide
  have hlength : ∀ q ∈ recordedPaths, q.length < 4 := by decide
  have htake : p = q.take p.length := List.prefix_iff_eq_take.1 hp
  rw [htake] at hne ⊢
  exact hall q hq p.length (Nat.lt_of_le_of_lt hp.length_le (hlength q hq)) hne

theorem Shaped.roomy (h : Shaped doc) (hq : q ∈ recordedPaths) (hp : p <+: q) (hne : p ≠ q) :
    Roomy (doc.at? p) := by
  have habove := above_recorded hq hp hne
  simp only [List.mem_cons, List.not_mem_nil, or_false] at habove
  rcases habove with rfl | rfl | rfl | rfl | rfl
  · obtain ⟨ds, rfl⟩ := h.root
    exact .inr (.inr ⟨ds, rfl⟩)
  · exact .inr (.inr h.metadata)
  · exact h.labels
  · exact .inr (.inr h.spec)
  · exact h.status

/-- The labels of a server differ from earlier ones at three keys. -/
theorem get?_labels_withServer (m : Machine) (x : Server) {k : String}
    (htype : k ≠ instanceTypeLabel) (hregion : k ≠ regionLabel) (hzone : k ≠ zoneLabel) :
    (m.withServer x).labels.get? k = m.labels.get? k := by
  simp [labels_withServer, StringMap.get?_insert, htype, hregion, hzone]

theorem here_of_label {k : String} {v : Json}
    (hk : k = instanceTypeLabel ∨ k = regionLabel ∨ k = zoneLabel) :
    Within (pathsUnder k (pathsUnder "labels" (pathsUnder "metadata" mainPaths))) v := by
  apply Within.here
  rw [Json.mem_pathsUnder, Json.mem_pathsUnder, Json.mem_pathsUnder]
  rcases hk with rfl | rfl | rfl <;> simp [mainPaths]

theorem label_of_changed {m : Machine} {x : Server} {k : String}
    (h : (m.withServer x).labels.get? k ≠ m.labels.get? k) :
    k = instanceTypeLabel ∨ k = regionLabel ∨ k = zoneLabel := by
  by_contra hk
  simp only [not_or] at hk
  exact h (get?_labels_withServer m x hk.1 hk.2.1 hk.2.2)

theorem within_labels (m : Machine) (x : Server) {c : Json}
    (h : Json.change? (m.metadata.labels.map .ofStrings)
      (some (.ofStrings (m.withServer x).labels)) =
      some c) : Within (pathsUnder "labels" (pathsUnder "metadata" mainPaths)) c := by
  have hne : pathsUnder "labels" (pathsUnder "metadata" mainPaths) ≠ [] := by decide
  cases hl : m.metadata.labels with
  | none =>
    rw [hl] at h
    obtain rfl : Json.ofStrings (m.withServer x).labels = c := Option.some.inj h
    refine Json.within_of_find? hne (StringMap.ordered _) fun k v hv => ?_
    rw [Json.find?_ofStrings] at hv
    refine here_of_label (label_of_changed (m := m) (x := x) fun heq => ?_)
    rw [heq, labels, hl] at hv
    cases hv
  | some ls =>
    rw [hl] at h
    refine Json.within_diff (StringMap.ordered _) (StringMap.ordered _) hne (fun k v hv => ?_) h
    rw [Json.find?_ofStrings, Json.find?_ofStrings] at hv
    refine here_of_label (label_of_changed (m := m) (x := x) fun heq => ?_)
    rw [heq, labels, hl] at hv
    simp at hv

theorem within_metadata (m : Machine) (x : Server) {c : Json}
    (h : Json.diff m.metadata.toJson (m.withServer x).metadata.toJson = some c) :
    Within (pathsUnder "metadata" mainPaths) c := by
  refine Json.within_diff (Entries.ordered_ofList _) (Entries.ordered_ofList _) (by decide)
    (fun k v hv => ?_) h
  change Json.change? (m.metadata.toJson.get? k) ((m.withServer x).metadata.toJson.get? k) = _ at hv
  by_cases hk : k = "labels"
  · subst hk
    apply within_labels m x
    rw [← hv]
    simp [Kubernetes.Metadata.toJson, Json.get?_record, List.lookup_cons, withServer, labels]
  · have hsame : (m.withServer x).metadata.toJson.get? k = m.metadata.toJson.get? k :=
      Kubernetes.Metadata.get?_toJson_labels m.metadata _ hk
    rw [hsame, Json.change?_self] at hv
    cases hv

theorem within_spec (m : Machine) (x : Server) {c : Json}
    (h : Json.diff m.spec.toJson (m.withServer x).spec.toJson = some c) :
    Within (pathsUnder "spec" mainPaths) c := by
  refine Json.within_diff (Entries.ordered_ofList _) (Entries.ordered_ofList _) (by decide)
    (fun k v hv => ?_) h
  change Json.change? (m.spec.toJson.get? k) ((m.withServer x).spec.toJson.get? k) = _ at hv
  by_cases hk : k = "providerID"
  · subst hk
    exact .here (by decide)
  · have hbeq : (k == "providerID") = false := beq_eq_false_iff_ne.2 hk
    simp [MachineSpec.toJson, Json.get?_record, List.lookup_cons, hbeq, withServer] at hv

theorem within_main {patch : Json} {x : Server} (h : (m.patches (m.withServer x)).1 = some patch) :
    Within mainPaths patch := by
  rw [patches_eq] at h
  refine Json.within_diff (ordered_mainMembers m) (ordered_mainMembers _) (by decide)
    (fun k v hv => ?_) h
  by_cases hkm : k = "metadata"
  · subst hkm
    rw [find?_mainMembers_metadata, find?_mainMembers_metadata] at hv
    exact within_metadata m x hv
  · by_cases hks : k = "spec"
    · subst hks
      rw [find?_mainMembers_spec, find?_mainMembers_spec] at hv
      exact within_spec m x hv
    · rw [find?_mainMembers_rest (m.withServer x) m hkm hks] at hv
      simp at hv

theorem here_of_status {k : String} {v : Json} (hk : k = "addresses" ∨ k = "providerStatus") :
    Within (pathsUnder k (pathsUnder "status" statusPaths)) v := by
  apply Within.here
  rw [Json.mem_pathsUnder, Json.mem_pathsUnder]
  rcases hk with rfl | rfl <;> simp [statusPaths]

/-- A member of the new status is one of the two that are recorded, or stays as it was. -/
theorem here_or_kept (m : Machine) (x : Server) (k : String) :
    (∀ v, Within (pathsUnder k (pathsUnder "status" statusPaths)) v) ∨
      (m.withServer x).writtenStatus.get? k = (m.status.getD default).toJson.get? k := by
  by_cases ha : k = "addresses"
  · exact .inl fun _ => here_of_status (.inl ha)
  by_cases hp : k = "providerStatus"
  · exact .inl fun _ => here_of_status (.inr hp)
  · exact .inr (MachineStatus.get?_toJson_observed (m.status.getD default) _ _ ha hp)

/-- Where there was no status, the new one holds what is recorded, and no more. -/
theorem within_writtenStatus (hs : m.status = none) (x : Server) :
    Within (pathsUnder "status" statusPaths) (m.withServer x).writtenStatus := by
  refine Json.within_of_find? (by decide) (Entries.ordered_ofList _) fun k v hv => ?_
  rcases here_or_kept m x k with hhere | hkept
  · exact hhere v
  · have hempty : (default : MachineStatus).toJson.get? k = none := rfl
    change (m.withServer x).writtenStatus.get? k = some v at hv
    rw [hkept, hs, Option.getD_none, hempty] at hv
    cases hv

theorem within_statusDiff {c : Json} {x : Server}
    (h : Json.diff m.writtenStatus (m.withServer x).writtenStatus = some c) :
    Within (pathsUnder "status" statusPaths) c := by
  cases hs : m.status with
  | none =>
    have hwhole : Json.diff m.writtenStatus (m.withServer x).writtenStatus =
        some (m.withServer x).writtenStatus := by
      rw [writtenStatus, hs]
      exact Json.diff_of_not_object (by simp)
    obtain rfl : (m.withServer x).writtenStatus = c := Option.some.inj (hwhole.symm.trans h)
    exact within_writtenStatus hs x
  | some s =>
    have hwritten : m.writtenStatus = s.toJson := by rw [writtenStatus, hs]; rfl
    rw [hwritten] at h
    refine Json.within_diff (Entries.ordered_ofList _) (Entries.ordered_ofList _) (by decide)
      (fun k v hv => ?_) h
    rcases here_or_kept m x k with hhere | hkept
    · exact hhere v
    · rw [hs] at hkept
      change Json.change? (s.toJson.get? k) ((m.withServer x).writtenStatus.get? k) = _ at hv
      rw [hkept] at hv
      simp at hv

theorem within_status {patch : Json} {x : Server}
    (h : (m.patches (m.withServer x)).2 = some patch) :
    Within statusPaths patch := by
  rw [patches_eq, Option.map_eq_some_iff] at h
  obtain ⟨c, hc, rfl⟩ := h
  refine Json.within_of_find? (by decide) (Entries.ordered_ofList _) fun k v hv => ?_
  by_cases hk : k = "status"
  · subst hk
    obtain rfl : c = v := by simpa [Entries.find?_ofList] using hv
    exact within_statusDiff hc
  · simp [Entries.find?_ofList, Ne.symm hk] at hv

theorem foreign_apart : ∀ p ∈ foreignPaths, ∀ q ∈ recordedPaths, Apart p q := by decide

end Machine

namespace Simulation.World

variable {w : World}

theorem run_broken {c : ControlCall} (h : w.broken.contains (requestName c) = true) :
    ∃ e, w.run (Attempt.control c) = (.error e, w) := by
  refine ⟨.watch s!"injected {requestName c} failure", ?_⟩
  change w.answerControl c = _
  unfold answerControl
  exact if_pos h

/-- The patch of a status is sent if there is one and it is accepted. -/
theorem run_status_sent (w : World) (space name : String) (status : Option Json) : ∃ sent,
    (w.run (status.elim (pure ()) fun patch =>
      Attempt.control (.patchMachineStatus space name patch))).2 =
        { w with patches := w.patches ++ sent } ∧
    sent <+: status.toList.map (SentPatch.mk .machineStatus space name) := by
  have hunsent : w = { w with patches := w.patches ++ [] } := by rw [List.append_nil]
  cases status with
  | none => exact ⟨[], hunsent, List.nil_prefix⟩
  | some patch =>
    cases hb : w.broken.contains "patch_machine_status" with
    | false =>
      exact ⟨_, congrArg Prod.snd (run_patchMachineStatus hb (some patch)), List.prefix_rfl⟩
    | true =>
      obtain ⟨e, he⟩ := run_broken (w := w) (c := .patchMachineStatus space name patch) hb
      exact ⟨[], (congrArg Prod.snd he).trans hunsent, List.nil_prefix⟩

/-- A recording sends its patches in order, and stops at the first that fails. -/
theorem run_recordServer_sent (ctx : MachineContext) (x : Server) (w : World) :
    ∃ sent, (w.run (ctx.recordServer x)).2 = { w with patches := w.patches ++ sent } ∧
      sent <+: recordPatches ctx x ∧ (w.broken = [] → sent = recordPatches ctx x) := by
  by_cases hbroken : w.broken = []
  · have hrun := run_recordServer ctx x (acceptsRecords hbroken)
    exact ⟨_, congrArg Prod.snd hrun, List.prefix_rfl, fun _ => rfl⟩
  unfold MachineContext.recordServer recordPatches
  cases hp : ctx.machine.patches (ctx.machine.withServer x) with
  | mk main status =>
    cases main with
    | none =>
      obtain ⟨sent, hrun, hsent⟩ := w.run_status_sent ctx.space ctx.identity.name status
      exact ⟨sent, by cases status <;> exact hrun, by simpa using hsent, fun h => absurd h hbroken⟩
    | some patch =>
      cases hb : w.broken.contains "patch_machine" with
      | false =>
        obtain ⟨sent, hrun, hsent⟩ := run_status_sent
          (w.send ⟨.machine, ctx.space, ctx.identity.name, patch⟩) ctx.space ctx.identity.name
          status
        refine ⟨_ :: sent, (congrArg Prod.snd (run_patchMachine hb _)).trans ?_,
          List.cons_prefix_cons.2 ⟨rfl, hsent⟩, fun h => absurd h hbroken⟩
        rw [List.append_cons]
        cases status <;> exact hrun
      | true =>
        obtain ⟨e, he⟩ := run_broken (c := .patchMachine ctx.space ctx.identity.name patch) hb
        refine ⟨[], (congrArg Prod.snd (run_bind_error he)).trans ?_, List.nil_prefix,
          fun h => absurd h hbroken⟩
        simp

end Simulation.World

namespace Machine

/-- The recorded paths stand side by side. -/
theorem recorded_apart : ∀ p ∈ recordedPaths, ∀ q ∈ recordedPaths, p <+: q → p = q := by decide

theorem not_above_recorded (hq : q ∈ recordedPaths) (hpq : p <+: q) (hne : p ≠ q) :
    ∀ r ∈ recordedPaths, ¬ r <+: p := by
  intro r hr hrp
  obtain rfl := recorded_apart r hr q hq (hrp.trans hpq)
  exact hne (hpq.eq_of_length (Nat.le_antisymm hpq.length_le hrp.length_le))

theorem within_recorded {ctx : MachineContext} {x : Server} {s : SentPatch}
    (h : s ∈ World.recordPatches ctx x) :
    s.target ≠ .machineSet ∧ Within recordedPaths s.patch := by
  rcases List.mem_append.1 h with h | h
  · obtain ⟨patch, hpatch, rfl⟩ := List.mem_map.1 h
    have hmain := within_main (Option.mem_toList.1 hpatch)
    exact ⟨by simp, hmain.mono (List.subset_append_left _ _)⟩
  · obtain ⟨patch, hpatch, rfl⟩ := List.mem_map.1 h
    have hstatus := within_status (Option.mem_toList.1 hpatch)
    exact ⟨by simp, hstatus.mono (List.subset_append_right _ _)⟩

/-- Patches of a recording, one after the other. -/
theorem leftBut_applied {sent : List SentPatch}
    (h : ∀ s ∈ sent, s.target ≠ .machineSet ∧ Within recordedPaths s.patch)
    (hroom : ∀ q ∈ recordedPaths, ∀ r, r <+: q → r ≠ q → Roomy (doc.at? r)) :
    Json.LeftBut recordedPaths doc (applied sent doc) := by
  induction sent generalizing doc with
  | nil => exact .refl recordedPaths doc
  | cons s sent ih =>
    obtain ⟨⟨htarget, hw⟩, hrest⟩ := List.forall_mem_cons.1 h
    have happly : s.applyTo doc = doc.merge s.patch := by
      unfold SentPatch.applyTo
      cases ht : s.target with
      | machineSet => exact absurd ht htarget
      | _ => rfl
    have hfirst : Json.LeftBut recordedPaths doc (s.applyTo doc) := by
      rw [happly]
      exact .merge hw hroom
    refine hfirst.trans (ih hrest fun q hq r hr hne => ?_)
    exact hfirst.roomy (not_above_recorded hq hr hne) (hroom q hq r hr hne)

end Machine

open Machine in
/-- Whatever a machine was read from, and whatever the document has become since, recording a server
on it changes the three labels, the provider identifier, the addresses and the provider status, and
makes labels or status to hold them where there are none. -/
theorem recording_leaves_rest (ctx : MachineContext) (x : Server) (w : World) (h : Shaped doc) :
    ∃ sent, (w.run (ctx.recordServer x)).2 = { w with patches := w.patches ++ sent } ∧
      sent <+: World.recordPatches ctx x ∧ (w.broken = [] → sent = World.recordPatches ctx x) ∧
      (∀ p, (∀ q ∈ recordedPaths, Apart p q) → (applied sent doc).at? p = doc.at? p) ∧
      (∀ p, ∀ q ∈ recordedPaths, p <+: q → p ≠ q → (applied sent doc).at? p = doc.at? p ∨
        Roomy (doc.at? p) ∧ ∃ ms, (applied sent doc).at? p = some (.object ms)) ∧
      ∀ p ∈ foreignPaths, (applied sent doc).at? p = doc.at? p := by
  obtain ⟨sent, hrun, hpre, hall⟩ := World.run_recordServer_sent ctx x w
  have hroom : ∀ q ∈ recordedPaths, ∀ r, r <+: q → r ≠ q → Roomy (doc.at? r) :=
    fun q hq r hr hne => h.roomy hq hr hne
  have hleft : Json.LeftBut recordedPaths doc (applied sent doc) :=
    leftBut_applied (fun s hs => within_recorded (hpre.subset hs)) hroom
  refine ⟨sent, hrun, hpre, hall, fun p hp => hleft.apart hp, fun p q hq hpq hne => ?_,
    fun p hp => hleft.apart (foreign_apart p hp)⟩
  refine (hleft p (not_above_recorded hq hpq hne)).imp id ?_
  rintro ⟨-, hobj⟩
  exact ⟨hroom q hq p hpq hne, hobj⟩

/-- What became of a machine's document: its labels are gone, an annotation and an
unknown null came. -/
def movedDocument : Json :=
  .object [
    ("metadata", .object [("annotations", .object [("note", .string "x")]), ("labels", .null)]),
    ("note", .null), ("spec", .object [])]

theorem recording_leaves_rest_moved :
    Machine.Shaped movedDocument ∧ ∃ sent,
      ((default : World).run (MachineContext.recordServer
        { (default : MachineContext) with machine := nullMachine } default)).2.patches = sent ∧
      (applied sent movedDocument).at? [.key "metadata", .key "annotations"] =
        some (.object [("note", .string "x")]) ∧
      (applied sent movedDocument).at? [.key "note"] = some .null := by
  have hshaped : Machine.Shaped movedDocument :=
    ⟨⟨_, rfl⟩, ⟨_, rfl⟩, .inr (.inl rfl), ⟨_, rfl⟩, .inl rfl⟩
  obtain ⟨sent, hrun, -, -, hapart, -, hforeign⟩ := recording_leaves_rest
    { (default : MachineContext) with machine := nullMachine } default default hshaped
  refine ⟨hshaped, sent, congrArg World.patches hrun, ?_, ?_⟩
  · exact hforeign _ (by decide)
  · exact hapart _ (by decide)

end MachineProvider
