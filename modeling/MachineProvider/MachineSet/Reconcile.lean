import MachineProvider.MachineSet.Annotations
import MachineProvider.Reconcile
/-! One pass over a machine set: its capacity annotations are written when they are out of date. -/
namespace MachineProvider

def annotationsPatch (annotations : StringMap String) : Json :=
  .record [("metadata", some (.record [("annotations", some (.ofStrings annotations))]))]

/-- The annotations to write; none when nothing is to be done. -/
def MachineSet.pendingAnnotations (set : MachineSet) : Except Error (Option (StringMap String)) :=
  if set.metadata.isDeleting then .ok none
  else do
    let desired ← set.desiredAnnotations
    return desired.filter (· ≠ set.annotations)

def MachineSet.reconcile (set : MachineSet) : Attempt Action := do
  match ← Attempt.ofExcept set.pendingAnnotations with
  | none => return .awaitChange
  | some annotations => do
    Attempt.control (.patchMachineSet (set.metadata.namespace_.getD "") set.metadata.anyName
      (annotationsPatch annotations))
    return .awaitChange

end MachineProvider
