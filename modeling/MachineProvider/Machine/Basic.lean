import MachineProvider.Kubernetes.Metadata
import MachineProvider.Payload.Spec
/-! Machines and machine sets as the control plane stores them. -/
namespace MachineProvider

open Json (Decoder Fields)
open Kubernetes (Metadata)

/-- The label that carries a machine's cluster identifier. -/
def clusterIdLabel : String := "machine.openshift.io/cluster-api-cluster"

def machineApiVersion : String := "machine.openshift.io/v1beta1"

inductive MachineAddressType where
  | hostname
  | internalDns
  | externalDns
  | internalIp
  | externalIp
deriving DecidableEq, Inhabited

namespace MachineAddressType

def text : MachineAddressType → String
  | .hostname => "Hostname"
  | .internalDns => "InternalDNS"
  | .externalDns => "ExternalDNS"
  | .internalIp => "InternalIP"
  | .externalIp => "ExternalIP"

def names : List (String × MachineAddressType) :=
  [hostname, internalDns, externalDns, internalIp, externalIp].map fun t => (t.text, t)

def decode : Decoder MachineAddressType := Decoder.variant names

end MachineAddressType

structure MachineAddress where
  type : MachineAddressType
  address : String
deriving DecidableEq, Inhabited

namespace MachineAddress

def decode : Decoder MachineAddress :=
  Fields.record "MachineAddress" <|
    MachineAddress.mk
      <$> Fields.required "type" MachineAddressType.decode
      <*> Fields.required "address" Decoder.text

def toJson (a : MachineAddress) : Json :=
  .record [("type", some (.string a.type.text)), ("address", some (.string a.address))]

end MachineAddress

structure MachineSpec where
  providerId : Option String
  /-- The opaque provider payload. -/
  providerValue : Option Json
deriving Inhabited

namespace MachineSpec

def decodeValue : Decoder (Option Json) :=
  Fields.record "ProviderSpec" (Fields.nullable "value" Decoder.any)

def decode : Decoder MachineSpec :=
  Fields.record "MachineSpec" <|
    MachineSpec.mk
      <$> Fields.nullable "providerID" Decoder.text
      <*> Fields.optional "providerSpec" decodeValue none

def toJson (s : MachineSpec) : Json :=
  .record [("providerID", s.providerId.map .string),
    ("providerSpec", some (.record [("value", s.providerValue)]))]

end MachineSpec

structure MachineStatus where
  addresses : List MachineAddress
  /-- The opaque provider status. -/
  providerStatus : Option Json
  phase : Option String
  errorReason : Option String
  errorMessage : Option String
deriving Inhabited

namespace MachineStatus

def decode : Decoder MachineStatus :=
  Fields.record "MachineStatus" <|
    MachineStatus.mk
      <$> Fields.optional "addresses" (Decoder.list MachineAddress.decode) []
      <*> Fields.nullable "providerStatus" Decoder.any
      <*> Fields.nullable "phase" Decoder.text
      <*> Fields.nullable "errorReason" Decoder.text
      <*> Fields.nullable "errorMessage" Decoder.text

def toJson (s : MachineStatus) : Json :=
  .record [("addresses", nonEmptyList MachineAddress.toJson s.addresses),
    ("providerStatus", s.providerStatus),
    ("phase", s.phase.map .string),
    ("errorReason", s.errorReason.map .string),
    ("errorMessage", s.errorMessage.map .string)]

end MachineStatus

structure Machine where
  metadata : Metadata
  spec : MachineSpec
  status : Option MachineStatus
deriving Inhabited

namespace Machine

def decode : Decoder Machine :=
  Fields.record "Machine" <|
    Machine.mk
      <$> Fields.required "metadata" Metadata.decode
      <*> Fields.required "spec" MachineSpec.decode
      <*> Fields.nullableInPlace "status" MachineStatus.decode

def toJson (m : Machine) : Json :=
  .record [("apiVersion", some (.string machineApiVersion)),
    ("kind", some (.string "Machine")),
    ("metadata", some m.metadata.toJson),
    ("spec", some m.spec.toJson),
    ("status", m.status.map MachineStatus.toJson)]

def finalizers (m : Machine) : List String := m.metadata.finalizers.getD []

def labels (m : Machine) : StringMap String := m.metadata.labels.getD .empty

end Machine

structure MachineSetSpec where
  replicas : Option Int
  /-- The spec stamped into every machine of the set. -/
  template : MachineSpec
deriving Inhabited

namespace MachineSetSpec

def decodeTemplate : Decoder MachineSpec :=
  Fields.record "MachineTemplateSpec" (Fields.optional "spec" MachineSpec.decode default)

def decode : Decoder MachineSetSpec :=
  Fields.record "MachineSetSpec" <|
    MachineSetSpec.mk
      <$> Fields.nullable "replicas" Decoder.i32
      <*> Fields.optional "template" decodeTemplate default

def toJson (s : MachineSetSpec) : Json :=
  .record [("replicas", s.replicas.map .int),
    ("template", some (.record [("spec", some s.template.toJson)]))]

end MachineSetSpec

structure MachineSet where
  metadata : Metadata
  spec : MachineSetSpec
deriving Inhabited

namespace MachineSet

def decode : Decoder MachineSet :=
  Fields.record "MachineSet" <|
    MachineSet.mk
      <$> Fields.required "metadata" Metadata.decode
      <*> Fields.required "spec" MachineSetSpec.decode

def toJson (s : MachineSet) : Json :=
  .record [("apiVersion", some (.string machineApiVersion)),
    ("kind", some (.string "MachineSet")),
    ("metadata", some s.metadata.toJson),
    ("spec", some s.spec.toJson)]

def annotations (s : MachineSet) : StringMap String := s.metadata.annotations.getD .empty

end MachineSet

end MachineProvider
