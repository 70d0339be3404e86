import MachineProvider.Kubernetes.Condition
import MachineProvider.Payload.Spec
/-! What the provider reports about a machine's server. -/
namespace MachineProvider

open Json (Decoder Fields)
open Kubernetes (Condition)

structure ProviderStatus where
  instanceId : String
  status : String
  conditions : List Condition
deriving Inhabited, DecidableEq

namespace ProviderStatus

def kind : String := "CloudscaleMachineProviderStatus"

def decode : Decoder ProviderStatus :=
  Fields.record kind <|
    ProviderStatus.mk
      <$> Fields.optional "instanceId" Decoder.text ""
      <*> Fields.optional "status" Decoder.text ""
      <*> Fields.defaulted "conditions" (Decoder.list Condition.decode)

def members (s : ProviderStatus) : List (String × Option Json) :=
  [("instanceId", nonEmptyText s.instanceId),
    ("status", nonEmptyText s.status),
    ("conditions", nonEmptyList Condition.toJson s.conditions)]

end ProviderStatus

end MachineProvider
