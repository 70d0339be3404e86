import Mathlib.Logic.Relation
import MachineProvider.MachineSet.Reconcile
import MachineProvider.Proofs.Machine.Decoding
import MachineProvider.Proofs.MachineSet.Annotations
import MachineProvider.Proofs.Program.Endings

/-! The annotations of a set settle with the first patch that is applied: what a pass writes is what
the next one finds, whatever the annotations were before. -/
namespace MachineProvider

open Capacity
open Json (Decoder Fields)
open Json.Fields (Holds)
open KeyValues (pairs parse)
open Kubernetes (Metadata)
open Relation (ReflTransGen)

namespace MachineSet

variable {set : MachineSet} {a d : StringMap String} {doc : Json}

theorem decode_object {ds : Entries Json} (ho : ds.Ordered) :
    decode (.object ds) = .ok set ↔
      Holds "metadata" Metadata.decode none ds set.metadata ∧
      Holds "spec" MachineSetSpec.decode none ds set.spec := by
  simp only [decode, Fields.record_object ho, Fields.read_seq, Fields.read_map, Fields.required,
    Fields.read_single ho]
  constructor
  · rintro ⟨_, h₁, _, h₂, rfl⟩
    exact ⟨h₁, h₂⟩
  · rintro ⟨h₁, h₂⟩
    exact ⟨_, h₁, _, h₂, rfl⟩

/-- A document that is read as the set. -/
structure StoredIn (set : MachineSet) (doc : Json) : Prop where
  canonical : doc.Canonical
  object : ∃ ds : Entries Json, doc = .object ds
  decoded : decode doc = .ok set

/-- Texts patched with others are those of both, and where both have one that of the patch. -/
theorem merge_ofStrings_union (a d : StringMap String) :
    Json.merge (.ofStrings a) (.ofStrings d) = .ofStrings (a.union d) := by
  change Json.object (Json.mergeMembers (a.map Json.string).entries (d.map Json.string).entries) =
    .object ((a.union d).map Json.string).entries
  refine congrArg _ ((Json.ordered_mergeMembers (a.map Json.string).ordered).ext
    ((a.union d).map Json.string).ordered fun k => ?_)
  rw [Json.find?_mergeMembers (d.map Json.string).ordered, Json.find?_ofStrings,
    Json.find?_ofStrings, Json.find?_ofStrings, StringMap.get?_union]
  cases d.get? k with
  | some s => cases a.get? k <;> rfl
  | none => rfl

/-- What is read as texts is read as them and the others once it is patched with others. -/
theorem merge_annotations {ms : Entries Json} {o : Option (StringMap String)}
    (hc : (Json.object ms).Canonical)
    (ho : Holds "annotations" (Decoder.nullable (.map .text)) (some none) ms o)
    (d : StringMap String) :
    Json.merge ((ms.find? "annotations").getD .null) (.ofStrings d) =
      .ofStrings ((o.getD .empty).union d) := by
  have hnothing : Json.ofStrings (StringMap.empty.union d) = .ofStrings d := by
    refine congrArg _ (StringMap.ext_get? fun k => ?_)
    rw [StringMap.get?_union]
    cases d.get? k <;> rfl
  rcases ho.raw_texts hc with hraw | ⟨hraw, hnone⟩
  · cases o with
    | none =>
      rw [hraw]
      exact (Json.merge_ofStrings d rfl).trans hnothing.symm
    | some a =>
      rw [hraw]
      exact merge_ofStrings_union a d
  · obtain rfl : o = none := Option.map_eq_none_iff.1 hnone
    rw [hraw]
    exact (Json.merge_ofStrings d rfl).trans hnothing.symm

theorem StoredIn.metadata_object (h : set.StoredIn doc) :
    ∃ ds ms : Entries Json, doc = .object ds ∧ ds.find? "metadata" = some (.object ms) ∧
      Metadata.decode (.object ms) = .ok set.metadata := by
  obtain ⟨ds, rfl⟩ := h.object
  have hmeta := ((decode_object h.canonical.ordered).1 h.decoded).1
  unfold Holds at hmeta
  cases hf : ds.find? "metadata" with
  | none => simp [hf] at hmeta
  | some v =>
    rw [hf] at hmeta
    obtain ⟨ms, rfl⟩ := Fields.object_of_named hmeta
    exact ⟨ds, ms, rfl, hf, hmeta⟩

/-- Patched annotations join those that are stored. -/
theorem StoredIn.mergeUnion (h : set.StoredIn doc) (d : StringMap String) :
    (set.withAnnotations (set.annotations.union d)).StoredIn (doc.merge (annotationsPatch d)) := by
  obtain ⟨ds, ms, rfl, hms, hmd⟩ := h.metadata_object
  have ho := h.canonical.ordered
  have hspec := ((decode_object ho).1 h.decoded).2
  have hmc := Json.canonical_of_find? h.canonical hms
  have hmerged := merge_annotations hmc ((Metadata.decode_object hmc.ordered).1 hmd).1 d
  change _ = Json.ofStrings (set.annotations.union d) at hmerged
  generalize set.annotations.union d = joined at hmerged ⊢
  have hmerge : Json.merge (.object ds) (annotationsPatch d) =
      .object (ds.insert "metadata" (.object (ms.insert "annotations" (.ofStrings joined)))) := by
    change Json.merge (.object ds) (.object [("metadata", .object [("annotations", _)])]) = _
    rw [Json.merge_member (by rintro ⟨⟩)]
    change Json.object (ds.insert "metadata" (Json.merge ((ds.find? "metadata").getD .null) _)) = _
    rw [hms, Option.getD_some, Json.merge_member (by rintro ⟨⟩)]
    exact congrArg
      (fun v => Json.object (ds.insert "metadata" (.object (ms.insert "annotations" v)))) hmerged
  have hwritten : (ms.insert "annotations" (Json.ofStrings joined)).find? "annotations" =
      some (.ofStrings joined) := by simp [Entries.find?_insert]
  have hrest : ∀ k, k ≠ "annotations" →
      (ms.insert "annotations" (Json.ofStrings joined)).find? k = ms.find? k := by
    intro k hk
    simp [Entries.find?_insert, hk]
  have hread := Metadata.decode_annotations hmd hmc.ordered hmc.ordered.insert
    (.of_find? hwritten (by rintro ⟨⟩) (Decoder.map_text_ofStrings joined)) hrest
  have hcan := Json.canonical_insert (k := "annotations") hmc (Json.canonical_ofStrings joined)
  rw [hmerge]
  refine ⟨Json.canonical_insert h.canonical hcan, ⟨_, rfl⟩, (decode_object ho.insert).2 ⟨?_, ?_⟩⟩
  · simpa [Holds, withAnnotations, Entries.find?_insert] using hread
  · simpa [Holds, withAnnotations, Entries.find?_insert] using hspec

/-- Annotations under all keys that there were, and more, take the place of the earlier ones. -/
theorem StoredIn.mergeAnnotations (h : set.StoredIn doc)
    (hd : ∀ k, (set.annotations.get? k).isSome → (d.get? k).isSome) :
    (set.withAnnotations d).StoredIn (doc.merge (annotationsPatch d)) := by
  have hcovered : set.annotations.union d = d := by
    refine StringMap.ext_get? fun k => ?_
    have hk := hd k
    rw [StringMap.get?_union]
    cases hdk : d.get? k with
    | some s => rfl
    | none => simpa [hdk] using hk
  have hmerged := h.mergeUnion d
  rwa [hcovered] at hmerged

end MachineSet

/-- The stored document of one set, and how many requests were sent for it. -/
structure SetStore where
  document : Json
  requests : Nat

namespace SetStore

/-- A patch reaches the document, or fails without effect; every call is counted. -/
def Patches (patch : Json) (k : SetStore) (r : Except Error Unit) (l : SetStore) : Prop :=
  l.requests = k.requests + 1 ∧
    (l.document = k.document.merge patch ∨ (∃ e, r = .error e) ∧ l.document = k.document)

def Answers (k : SetStore) : (c : Call) → c.Answer → SetStore → Prop
  | .control (.patchMachineSet _ _ patch), r, l => Patches patch k r l
  | _, _, l => l = { k with requests := k.requests + 1 }

/-- One pass over the set as it is stored. -/
def Pass (k l : SetStore) : Prop :=
  ∃ set r, MachineSet.decode k.document = .ok set ∧ set.reconcile.CanEnd Answers k r l

end SetStore

namespace MachineSet

variable {set : MachineSet} {d : StringMap String} {k l : SetStore} {r : Except Error Action}

theorem pendingAnnotations_eq (hlive : set.metadata.isDeleting = false)
    (hd : set.desiredAnnotations = .ok (some d)) :
    set.pendingAnnotations = .ok (if d = set.annotations then none else some d) := by
  unfold pendingAnnotations
  by_cases h : d = set.annotations <;>
    simp [hlive, hd, h, bind, Except.bind, pure, Except.pure, Option.filter]

/-- A pass writes the annotations that are desired, unless they are there. -/
theorem reconcile_ends (hlive : set.metadata.isDeleting = false)
    (hd : set.desiredAnnotations = .ok (some d)) (h : set.reconcile.CanEnd SetStore.Answers k r l) :
    d = set.annotations ∧ r = .ok .awaitChange ∧ l = k ∨
      d ≠ set.annotations ∧ SetStore.Patches (annotationsPatch d) k (r.map fun _ => ()) l := by
  unfold reconcile at h
  rw [pendingAnnotations_eq hlive hd] at h
  rcases Attempt.canEnd_bind.1 h with ⟨pending, v, hpending, hrest⟩ | ⟨e, rfl, hpending⟩
  · obtain ⟨heq, rfl⟩ := Attempt.canEnd_ofExcept.1 hpending
    by_cases hsame : d = set.annotations
    · obtain rfl : pending = none := by simpa [hsame] using heq
      obtain ⟨rfl, rfl⟩ := Attempt.canEnd_pure.1 hrest
      exact .inl ⟨hsame, rfl, rfl⟩
    · obtain rfl : pending = some d := by simpa [hsame] using heq
      refine .inr ⟨hsame, ?_⟩
      obtain ⟨r', rfl, hpatch⟩ := Attempt.canEnd_map.1 hrest
      have hpatched := Attempt.canEnd_control.1 hpatch
      cases r' <;> exact hpatched
  · obtain ⟨heq, -⟩ := Attempt.canEnd_ofExcept.1 hpending
    cases heq

/-- Where the desired annotations are stored, no pass sends anything any more. -/
theorem StoredIn.settled (h : set.StoredIn k.document)
    (hd : set.desiredAnnotations = .ok (some set.annotations))
    (hlive : set.metadata.isDeleting = false)
    (hpasses : ReflTransGen SetStore.Pass k l) : l = k := by
  induction hpasses with
  | refl => rfl
  | tail _ hpass ih =>
    obtain ⟨read, r, hread, hends⟩ := hpass
    subst ih
    obtain rfl : set = read := Except.ok.inj (h.decoded.symm.trans hread)
    rcases reconcile_ends hlive hd hends with ⟨-, -, hl⟩ | ⟨hne, -⟩
    · exact hl
    · exact absurd rfl hne

/-- The annotations that are desired of a set differ from its own at the capacity keys only and lose
no label, and are desired again once they are there. So after a pass that did not fail without
effect they are what is stored, and no later pass sends a request. -/
theorem annotations_settle (hlive : set.metadata.isDeleting = false)
    (hd : set.desiredAnnotations = .ok (some d)) :
    (∀ key, key ∉ Capacity.keys → d.get? key = set.annotations.get? key) ∧
    (∃ labels, d.get? labelsAnnotation = some labels ∧
      parse labels = (parse archLabel).union (parse (previousLabels set.annotations)) ∧
      ∀ before key value after,
        pairs (previousLabels set.annotations) = before ++ (key, value) :: after →
        (∀ p ∈ after, p.1 ≠ key) → (key, value) ∈ pairs labels) ∧
    (set.withAnnotations d).desiredAnnotations = .ok (some d) ∧
    ∀ k r l, set.StoredIn k.document → set.reconcile.CanEnd SetStore.Answers k r l →
      (∃ e, r = .error e) ∧ l.document = k.document ∨
        (set.withAnnotations d).StoredIn l.document ∧ l.requests ≤ k.requests + 1 ∧
          ∀ n, ReflTransGen SetStore.Pass l n → n = l := by
  obtain ⟨cpu, memory, -, hcapacity⟩ := desiredAnnotations_eq_some.1 hd
  have hagain := desiredAnnotations_withAnnotations hd
  refine ⟨fun key hkey => ?_, ⟨_, ?_, KeyValues.parse_merge_pair .., ?_⟩, hagain,
    fun k r l hstored hends => ?_⟩
  · rw [hcapacity]
    exact get?_withCapacity_of_not_mem hkey
  · rw [hcapacity, get?_withCapacity, if_pos rfl]
  · intro before key value after hpairs hlast
    exact KeyValues.mem_pairs_merge_of_last archLabel hpairs hlast
  · have hsettled : ∀ l : SetStore, (set.withAnnotations d).StoredIn l.document →
        ∀ n, ReflTransGen SetStore.Pass l n → n = l :=
      fun l hl n hn => hl.settled hagain hlive hn
    rcases reconcile_ends hlive hd hends with
      ⟨rfl, -, rfl⟩ | ⟨-, hrequests, hpatched | ⟨hfailed, hdocument⟩⟩
    · have hself := withAnnotations_self hd
      rw [hself] at hsettled ⊢
      exact .inr ⟨hstored, Nat.le_succ _, hsettled _ hstored⟩
    · have hcovered : ∀ key, (set.annotations.get? key).isSome → (d.get? key).isSome := by
        intro key hkey
        rw [hcapacity]
        exact isSome_get?_withCapacity hkey
      have hl : (set.withAnnotations d).StoredIn l.document :=
        hpatched ▸ hstored.mergeAnnotations hcovered
      exact .inr ⟨hl, Nat.le_of_eq hrequests, hsettled l hl⟩
    · refine .inl ⟨?_, hdocument⟩
      obtain ⟨e, he⟩ := hfailed
      cases r with
      | ok a => cases he
      | error e => exact ⟨e, rfl⟩

/-- A set with broken labels and one of its own for the architecture. -/
def smallSet : MachineSet where
  metadata := { (default : Metadata) with
    annotations := some (.ofList [("note", "x"),
      ("capacity.cluster-autoscaler.kubernetes.io/labels",
        "a=1,b,=,kubernetes.io/arch=arm64,c=1=2,a=2")]) }
  spec := ⟨none, ⟨none, some (.object [("flavor", .string "flex-16-4")])⟩⟩

def smallDocument : Json :=
  .object [("metadata", .object [("annotations", .object [
      ("capacity.cluster-autoscaler.kubernetes.io/labels",
        .string "a=1,b,=,kubernetes.io/arch=arm64,c=1=2,a=2"),
      ("note", .string "x")])]),
    ("spec", .object [("template", .object [("spec", .object [("providerSpec", .object [("value",
      .object [("flavor", .string "flex-16-4")])])])])])]

theorem small_storedIn : smallSet.StoredIn smallDocument where
  canonical := by
    have hcanonical : smallDocument.canonical = smallDocument := by rfl
    exact hcanonical ▸ Json.canonical_canonical smallDocument
  object := ⟨_, rfl⟩
  decoded := by rfl

theorem small_sized : smallSet.spec.template.Sized 4 16384 :=
  ⟨_, _, ⟨"flex", 4, 16⟩, rfl, rfl, rfl, rfl, rfl⟩

theorem small_outdated : withCapacity smallSet.annotations 4 16384 ≠ smallSet.annotations := by
  intro h
  have hgpu := get?_withCapacity smallSet.annotations 4 16384 gpuAnnotation
  rw [h] at hgpu
  exact absurd hgpu (by decide)

/-- The first pass over it sends one patch, which keeps the label for the architecture. -/
theorem annotations_settle_small :
    ∃ d labels l, smallSet.desiredAnnotations = .ok (some d) ∧ d.get? "note" = some "x" ∧
      d.get? labelsAnnotation = some labels ∧ ("kubernetes.io/arch", "arm64") ∈ pairs labels ∧
      SetStore.Pass ⟨smallDocument, 0⟩ l ∧ (smallSet.withAnnotations d).StoredIn l.document ∧
      ∀ n, ReflTransGen SetStore.Pass l n → n = l := by
  have hd := desiredAnnotations_eq_some.2 ⟨4, 16384, small_sized, rfl⟩
  have hne := small_outdated
  generalize withCapacity smallSet.annotations 4 16384 = d at hd hne
  have hends : smallSet.reconcile.CanEnd SetStore.Answers ⟨smallDocument, 0⟩ (.ok .awaitChange)
      ⟨smallDocument.merge (annotationsPatch d), 1⟩ := by
    unfold reconcile
    rw [pendingAnnotations_eq rfl hd, if_neg hne]
    exact ⟨.ok (), _, ⟨rfl, .inl rfl⟩, rfl, rfl⟩
  obtain ⟨hothers, ⟨labels, hlabels, -, hkept⟩, -, hpasses⟩ := annotations_settle rfl hd
  have hnote : d.get? "note" = some "x" := hothers "note" (by decide)
  have hpairs : pairs (previousLabels smallSet.annotations) =
      [("a", "1"), ("", "")] ++ ("kubernetes.io/arch", "arm64") :: [("a", "2")] := rfl
  rcases hpasses _ _ _ small_storedIn hends with ⟨⟨e, he⟩, -⟩ | ⟨hstored, -, hquiet⟩
  · cases he
  · have harch : ("kubernetes.io/arch", "arm64") ∈ pairs labels := hkept _ _ _ _ hpairs (by simp)
    have hpass : SetStore.Pass ⟨smallDocument, 0⟩
        ⟨smallDocument.merge (annotationsPatch d), 1⟩ :=
      ⟨smallSet, .ok .awaitChange, small_storedIn.decoded, hends⟩
    exact ⟨d, labels, _, hd, hnote, hlabels, harch, hpass, hstored, hquiet⟩

end MachineSet

end MachineProvider
