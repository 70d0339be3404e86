import MachineProvider.Error
import MachineProvider.Machine.Basic
import MachineProvider.MachineSet.Flavor
import MachineProvider.MachineSet.KeyValues
/-! The annotations that tell an autoscaler the size of a set's machines. -/
namespace MachineProvider

namespace Capacity

def cpuAnnotation : String := "machine.openshift.io/vCPU"

def memoryAnnotation : String := "machine.openshift.io/memoryMb"

def gpuAnnotation : String := "machine.openshift.io/GPU"

def labelsAnnotation : String := "capacity.cluster-autoscaler.kubernetes.io/labels"

/-- No flavor has graphics processors. -/
def gpuCount : String := "0"

/-- Every machine has this architecture. -/
def archLabel : String := "kubernetes.io/arch=amd64"

end Capacity

open Capacity

def Flavor.invalid (text : String) : Error :=
  .invalidConfig s!"flavor {Text.quoted text} does not match expected format"

/-- The annotations a set should carry; none when its template has no provider payload. -/
def MachineSet.desiredAnnotations (set : MachineSet) : Except Error (Option (StringMap String)) :=
  match set.spec.template.providerValue with
  | none => .ok none
  | some raw => do
    let spec ← (ProviderSpec.ofRaw (some raw)).mapError .payload
    let flavor ← match Flavor.parse? spec.flavor with
      | some f => .ok f
      | none => .error (Flavor.invalid spec.flavor)
    let memory ← match flavor.memoryMb? with
      | some m => .ok m
      | none => .error (.invalidConfig s!"flavor {Text.quoted spec.flavor} memory is out of range")
    let sized := ((set.annotations.insert cpuAnnotation (toString flavor.cpu)).insert
      memoryAnnotation (toString memory)).insert gpuAnnotation gpuCount
    let existing := (sized.get? labelsAnnotation).getD ""
    return some (sized.insert labelsAnnotation (KeyValues.merge [archLabel, existing]))

end MachineProvider
