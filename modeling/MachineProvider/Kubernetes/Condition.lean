import MachineProvider.Kubernetes.Metadata
/-! Conditions: one aspect of an object's state and when it last changed. -/
namespace MachineProvider.Kubernetes

open Json (Decoder Fields)

structure Condition where
  lastTransitionTime : Timestamp
  message : String
  observedGeneration : Option Int
  reason : String
  status : String
  type : String
deriving Inhabited, DecidableEq

namespace Condition

/-- A time that must be there; null counts as absent. -/
def transitionTime : Fields Timestamp where
  names := ["lastTransitionTime"]
  read source position :=
    match (Fields.nullable "lastTransitionTime" timestamp).read source position with
    | .ok (some t) => .ok t
    | .ok none =>
      let count := match source with
        | .members ms => ms.length
        | .elements vs => vs.length
      .error ⟨count + position, .absent "lastTransitionTime"⟩
    | .error e => .error e

def decode : Decoder Condition :=
  Fields.named "Condition" <|
    Condition.mk
      <$> transitionTime
      <*> field "message" Decoder.text
      <*> Fields.nullable "observedGeneration" Decoder.i64
      <*> field "reason" Decoder.text
      <*> field "status" Decoder.text
      <*> field "type" Decoder.text

def toJson (c : Condition) : Json :=
  .record [("lastTransitionTime", some (.string c.lastTransitionTime.text)),
    ("message", some (.string c.message)),
    ("observedGeneration", c.observedGeneration.map .int),
    ("reason", some (.string c.reason)),
    ("status", some (.string c.status)),
    ("type", some (.string c.type))]

end Condition

end MachineProvider.Kubernetes
