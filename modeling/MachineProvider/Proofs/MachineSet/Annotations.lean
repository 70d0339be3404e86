import Mathlib.Tactic.SplitIfs
import MachineProvider.MachineSet.Annotations
import MachineProvider.Proofs.MachineSet.KeyValues

/-! The annotations a set should carry are those it carries with a capacity written over them;
writing it twice is writing it once. -/
namespace MachineProvider

open Capacity

/-- The keys that a set's capacity is written under. -/
def Capacity.keys : List String :=
  cpuAnnotation :: memoryAnnotation :: gpuAnnotation :: labelsAnnotation :: []

/-- The flavor of the template, as annotations show it. -/
def MachineSpec.Sized (template : MachineSpec) (cpu memory : Nat) : Prop :=
  ∃ raw spec flavor, template.providerValue = some raw ∧
    ProviderSpec.ofRaw (some raw) = .ok spec ∧ Flavor.parse? spec.flavor = some flavor ∧
    flavor.cpu = cpu ∧ flavor.memoryMb? = some memory

namespace MachineSet

variable {set : MachineSet} {a d : StringMap String} {cpu memory : Nat}

def previousLabels (a : StringMap String) : String := (a.get? labelsAnnotation).getD ""

/-- The annotations with those of a capacity. -/
def withCapacity (a : StringMap String) (cpu memory : Nat) : StringMap String :=
  (((a.insert cpuAnnotation (toString cpu)).insert memoryAnnotation (toString memory)).insert
    gpuAnnotation gpuCount).insert labelsAnnotation (KeyValues.merge [archLabel, previousLabels a])

theorem get?_withCapacity (a : StringMap String) (cpu memory : Nat) (k : String) :
    (withCapacity a cpu memory).get? k =
      if k = labelsAnnotation then some (KeyValues.merge [archLabel, previousLabels a])
      else if k = gpuAnnotation then some gpuCount
      else if k = memoryAnnotation then some (toString memory)
      else if k = cpuAnnotation then some (toString cpu)
      else a.get? k := by
  simp only [withCapacity, StringMap.get?_insert]

theorem previousLabels_withCapacity (a : StringMap String) (cpu memory : Nat) :
    previousLabels (withCapacity a cpu memory) = KeyValues.merge [archLabel, previousLabels a] := by
  simp [previousLabels, get?_withCapacity]

/-- A capacity that is written once more changes nothing. -/
theorem withCapacity_withCapacity (a : StringMap String) (cpu memory : Nat) :
    withCapacity (withCapacity a cpu memory) cpu memory = withCapacity a cpu memory := by
  refine StringMap.ext_get? fun k => ?_
  rw [get?_withCapacity, previousLabels_withCapacity, KeyValues.merge_merge, get?_withCapacity]
  split_ifs <;> rfl

theorem get?_withCapacity_of_not_mem {k : String} (hk : k ∉ Capacity.keys) :
    (withCapacity a cpu memory).get? k = a.get? k := by
  simp only [Capacity.keys, List.mem_cons, List.not_mem_nil, or_false, not_or] at hk
  rw [get?_withCapacity, if_neg hk.2.2.2, if_neg hk.2.2.1, if_neg hk.2.1, if_neg hk.1]

/-- No annotation is removed for a capacity. -/
theorem isSome_get?_withCapacity {k : String} (h : (a.get? k).isSome) :
    ((withCapacity a cpu memory).get? k).isSome := by
  rw [get?_withCapacity]
  split_ifs
  exacts [rfl, rfl, rfl, rfl, h]

theorem desiredAnnotations_eq_some :
    set.desiredAnnotations = .ok (some d) ↔
      ∃ cpu memory, set.spec.template.Sized cpu memory ∧
        d = withCapacity set.annotations cpu memory := by
  have hlabels : ∀ cpu memory : String, (((set.annotations.insert cpuAnnotation cpu).insert
      memoryAnnotation memory).insert gpuAnnotation gpuCount).get? labelsAnnotation =
        set.annotations.get? labelsAnnotation := by
    intro cpu memory
    simp only [StringMap.get?_insert]
    rfl
  unfold desiredAnnotations MachineSpec.Sized
  cases hv : set.spec.template.providerValue with
  | none => simp
  | some raw =>
    cases hs : ProviderSpec.ofRaw (some raw) with
    | error e => simp [hs, Except.mapError, bind, Except.bind]
    | ok spec =>
      cases hf : Flavor.parse? spec.flavor with
      | none => simp [hs, hf, Except.mapError, bind, Except.bind]
      | some flavor =>
        cases hm : flavor.memoryMb? with
        | none => simp [hs, hf, hm, Except.mapError, bind, Except.bind]
        | some memory =>
          simp [hs, hf, hm, hlabels, withCapacity, previousLabels, Except.mapError, bind,
            Except.bind, pure, Except.pure, eq_comm]

/-- The set with other annotations. -/
def withAnnotations (set : MachineSet) (annotations : StringMap String) : MachineSet :=
  { set with metadata := { set.metadata with annotations := some annotations } }

@[simp] theorem annotations_withAnnotations (set : MachineSet) (a : StringMap String) :
    (set.withAnnotations a).annotations = a := rfl

/-- What is desired of a set is desired of it again once it is there. -/
theorem desiredAnnotations_withAnnotations (h : set.desiredAnnotations = .ok (some d)) :
    (set.withAnnotations d).desiredAnnotations = .ok (some d) := by
  obtain ⟨cpu, memory, hsized, rfl⟩ := desiredAnnotations_eq_some.1 h
  exact desiredAnnotations_eq_some.2 ⟨cpu, memory, hsized, (withCapacity_withCapacity ..).symm⟩

/-- A set that carries what is desired carries it in its metadata. -/
theorem withAnnotations_self (h : set.desiredAnnotations = .ok (some set.annotations)) :
    set.withAnnotations set.annotations = set := by
  obtain ⟨cpu, memory, -, hd⟩ := desiredAnnotations_eq_some.1 h
  have hgpu : set.annotations.get? gpuAnnotation = some gpuCount := by
    rw [hd, get?_withCapacity]
    rfl
  have hsome : set.metadata.annotations = some set.annotations := by
    cases ha : set.metadata.annotations with
    | some a => simp [annotations, ha]
    | none => simp [annotations, ha] at hgpu
  rw [withAnnotations, ← hsome]

end MachineSet

end MachineProvider
