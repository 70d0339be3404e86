import MachineProvider.Actuator.Lifecycle
/-!
One pass over a machine. A finalizer is set before any server exists and released only when the
server of a deleted machine is gone.
-/
namespace MachineProvider

def machineFinalizer : String := "machine.machine.openshift.io"

/-- When an object is looked at again. -/
inductive Action where
  | awaitChange
  | requeue (seconds : Nat)
deriving DecidableEq, Inhabited

/-- How long a healthy machine rests. -/
def machineResync : Nat := 600

/-- How long an object rests after a failure. -/
def errorRequeue : Nat := 60

def Machine.hasFinalizer (m : Machine) : Bool := m.finalizers.contains machineFinalizer

def finalizersPatch (finalizers : List String) : Json :=
  .record [("metadata", some (.record [("finalizers", some (.array (finalizers.map .string)))]))]

def Machine.setFinalizers (m : Machine) (finalizers : List String) : Attempt Unit :=
  Attempt.control (.patchMachine (m.metadata.namespace_.getD "") m.metadata.anyName
    (finalizersPatch finalizers))

/-- Removes the server of a deleted machine, then the finalizer. -/
def Actuator.release (a : Actuator) (m : Machine) : Attempt Action :=
  if m.hasFinalizer then do
    a.delete m
    m.setFinalizers (m.finalizers.filter (· ≠ machineFinalizer))
    return .awaitChange
  else return .awaitChange

/-- Sets the finalizer, then creates the server or looks after it. -/
def Actuator.converge (a : Actuator) (m : Machine) : Attempt Action := do
  if !m.hasFinalizer then m.setFinalizers (m.finalizers ++ [machineFinalizer])
  if ← a.exists_ m then a.update m else a.create m
  return .requeue machineResync

def Actuator.reconcile (a : Actuator) (m : Machine) : Attempt Action :=
  if m.metadata.isDeleting then a.release m else a.converge m

end MachineProvider
