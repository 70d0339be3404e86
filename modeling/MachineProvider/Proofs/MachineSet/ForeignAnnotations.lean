import MachineProvider.Proofs.MachineSet.Settling
import MachineProvider.Proofs.Reconcile.Coexistence

/-! What a pass over a set read earlier does to the annotations of others. The patch of a pass
names every annotation it has read, so those of others become what the pass has read, whatever
they are by then. -/
namespace MachineProvider

open Capacity
open Json (Path)

namespace MachineSet

variable {set stored : MachineSet} {d : StringMap String} {doc : Json}

/-- Where the annotations stand. -/
def annotationsPath : Path := [.key "metadata", .key "annotations"]

/-- Only the annotations of what is stored are patched. -/
theorem StoredIn.leftBut_annotations (h : stored.StoredIn doc) (d : StringMap String) :
    Json.LeftBut [annotationsPath] doc (doc.merge (annotationsPatch d)) := by
  obtain ⟨ds, ms, rfl, hms, -⟩ := h.metadata_object
  exact .merge_field hms _

theorem pendingAnnotations_eq_some (h : set.pendingAnnotations = .ok (some d)) :
    set.desiredAnnotations = .ok (some d) ∧ d ≠ set.annotations := by
  cases hdeleting : set.metadata.isDeleting with
  | true => simp [pendingAnnotations, hdeleting] at h
  | false =>
    cases hdesired : set.desiredAnnotations with
    | error e => simp [pendingAnnotations, hdeleting, hdesired, bind, Except.bind] at h
    | ok o =>
      cases o with
      | none =>
        simp [pendingAnnotations, hdeleting, hdesired, bind, Except.bind, pure, Except.pure] at h
      | some desired =>
        rw [pendingAnnotations_eq hdeleting hdesired] at h
        by_cases hsame : desired = set.annotations
        · simp [hsame] at h
        · rw [if_neg hsame] at h
          obtain rfl : desired = d := Option.some.inj (Except.ok.inj h)
          exact ⟨rfl, hsame⟩

/-- An annotation of others is what the pass has read, and where it has read none what is stored. -/
theorem get?_union_desired (hd : set.desiredAnnotations = .ok (some d)) (a : StringMap String)
    {k : String} (hk : k ∉ Capacity.keys) :
    (a.union d).get? k = (set.annotations.get? k).or (a.get? k) := by
  obtain ⟨cpu, memory, -, rfl⟩ := desiredAnnotations_eq_some.1 hd
  rw [StringMap.get?_union, get?_withCapacity_of_not_mem hk]

/-- The capacity is written whatever is stored. -/
theorem isSome_get?_desired (hd : set.desiredAnnotations = .ok (some d)) {k : String}
    (hk : k ∈ Capacity.keys) : (d.get? k).isSome := by
  obtain ⟨cpu, memory, -, rfl⟩ := desiredAnnotations_eq_some.1 hd
  simp only [Capacity.keys, List.mem_cons, List.not_mem_nil, or_false] at hk
  rw [get?_withCapacity]
  rcases hk with rfl | rfl | rfl | rfl <;> rfl

/-- All that a pass sends is one patch, which joins the annotations it has read with its capacity to
those stored by then and changes nothing else. So one of others is left alone exactly if the pass
has not read it or it is still what the pass has read: one that changed since is put back, and one
that was removed since is there again. -/
theorem annotations_patch_as_observed (set : MachineSet) :
    (ExceptT.run set.reconcile).Only (fun c => ∃ d, set.desiredAnnotations = .ok (some d) ∧
      d ≠ set.annotations ∧ c = .control (.patchMachineSet (set.metadata.namespace_.getD "")
        set.metadata.anyName (annotationsPatch d)) ∧
      ∀ (stored : MachineSet) doc, stored.StoredIn doc → ∃ after : MachineSet,
        after.StoredIn (doc.merge (annotationsPatch d)) ∧
        after = stored.withAnnotations after.annotations ∧
        Json.LeftBut [annotationsPath] doc (doc.merge (annotationsPatch d)) ∧
        (∀ k ∈ Capacity.keys, after.annotations.get? k = d.get? k) ∧
        ∀ k, k ∉ Capacity.keys →
          after.annotations.get? k = (set.annotations.get? k).or (stored.annotations.get? k) ∧
          (after.annotations.get? k = stored.annotations.get? k ↔
            ∀ v, set.annotations.get? k = some v → stored.annotations.get? k = some v))
      fun _ => True := by
  unfold reconcile
  cases hp : set.pendingAnnotations with
  | error e => trivial
  | ok o =>
    cases o with
    | none => trivial
    | some d =>
      obtain ⟨hd, hne⟩ := pendingAnnotations_eq_some hp
      refine ⟨⟨d, hd, hne, rfl, fun stored doc hstored => ?_⟩, fun r _ => by cases r <;> trivial⟩
      refine ⟨_, hstored.mergeUnion d, rfl, hstored.leftBut_annotations d, fun k hk => ?_,
        fun k hk => ?_⟩
      · obtain ⟨v, hv⟩ := Option.isSome_iff_exists.1 (isSome_get?_desired hd hk)
        rw [annotations_withAnnotations, StringMap.get?_union, hv]
        rfl
      · rw [annotations_withAnnotations, get?_union_desired hd _ hk]
        refine ⟨rfl, ?_⟩
        cases set.annotations.get? k with
        | none => simp
        | some v => simp [eq_comm]

/-- A note that another controller has changed since the pass has read the set is put back. -/
theorem annotations_patch_as_observed_note :
    ∃ (d : StringMap String) (stored after : MachineSet) (doc : Json),
      smallSet.desiredAnnotations = .ok (some d) ∧ stored.StoredIn doc ∧
      after.StoredIn (doc.merge (annotationsPatch d)) ∧
      smallSet.annotations.get? "note" = some "x" ∧
      stored.annotations.get? "note" = some "y" ∧ after.annotations.get? "note" = some "x" := by
  have hstored := small_storedIn.mergeUnion (.ofList [("note", "y")])
  have hd := desiredAnnotations_eq_some.2 ⟨4, 16384, small_sized, rfl⟩
  have hsent := annotations_patch_as_observed smallSet
  unfold reconcile at hsent
  rw [pendingAnnotations_eq rfl hd, if_neg small_outdated] at hsent
  obtain ⟨⟨d, hd, -, -, hpatched⟩, -⟩ := hsent
  obtain ⟨after, hafter, -, -, -, hforeign⟩ := hpatched _ _ hstored
  refine ⟨d, _, after, _, hd, hstored, hafter, rfl, rfl, ?_⟩
  exact (hforeign "note" (by decide)).1

end MachineSet

end MachineProvider
