import MachineProvider.Json.Decode
import MachineProvider.Timestamp
/-! Metadata that every stored object carries. Null stands for an absent field throughout. -/
namespace MachineProvider.Kubernetes

open Json (Decoder Fields)

/-- A timestamp in text. -/
def timestamp : Decoder Timestamp
  | .string s => (Timestamp.parse s).mapError fun e => .malformed e.message
  | v => .error (.wrongType v "an RFC 3339 formatted date and time string")

/-- A field whose absence, or null, is its default. -/
def field {α : Type} [Inhabited α] (name : String) (decode : Decoder α) : Fields α :=
  Fields.defaulted name decode

structure OwnerReference where
  apiVersion : String
  blockOwnerDeletion : Option Bool
  controller : Option Bool
  kind : String
  name : String
  uid : String
deriving Inhabited, DecidableEq

namespace OwnerReference

def decode : Decoder OwnerReference :=
  Fields.named "OwnerReference" <|
    OwnerReference.mk
      <$> field "apiVersion" Decoder.text
      <*> Fields.nullable "blockOwnerDeletion" Decoder.flag
      <*> Fields.nullable "controller" Decoder.flag
      <*> field "kind" Decoder.text
      <*> field "name" Decoder.text
      <*> field "uid" Decoder.text

def toJson (r : OwnerReference) : Json :=
  .record [("apiVersion", some (.string r.apiVersion)),
    ("blockOwnerDeletion", r.blockOwnerDeletion.map .bool),
    ("controller", r.controller.map .bool),
    ("kind", some (.string r.kind)),
    ("name", some (.string r.name)),
    ("uid", some (.string r.uid))]

end OwnerReference

/-- Which fields a writer owns. -/
structure ManagedFields where
  apiVersion : Option String
  fieldsType : Option String
  fields : Option Json
  manager : Option String
  operation : Option String
  subresource : Option String
  time : Option Timestamp
deriving Inhabited

namespace ManagedFields

def decode : Decoder ManagedFields :=
  Fields.named "ManagedFieldsEntry" <|
    ManagedFields.mk
      <$> Fields.nullable "apiVersion" Decoder.text
      <*> Fields.nullable "fieldsType" Decoder.text
      <*> Fields.nullable "fieldsV1" Decoder.any
      <*> Fields.nullable "manager" Decoder.text
      <*> Fields.nullable "operation" Decoder.text
      <*> Fields.nullable "subresource" Decoder.text
      <*> Fields.nullable "time" timestamp

def toJson (m : ManagedFields) : Json :=
  .record [("apiVersion", m.apiVersion.map .string),
    ("fieldsType", m.fieldsType.map .string),
    ("fieldsV1", m.fields),
    ("manager", m.manager.map .string),
    ("operation", m.operation.map .string),
    ("subresource", m.subresource.map .string),
    ("time", m.time.map fun t => .string t.text)]

end ManagedFields

structure Metadata where
  annotations : Option (StringMap String)
  creationTimestamp : Option Timestamp
  deletionGracePeriodSeconds : Option Int
  deletionTimestamp : Option Timestamp
  finalizers : Option (List String)
  generateName : Option String
  generation : Option Int
  labels : Option (StringMap String)
  managedFields : Option (List ManagedFields)
  name : Option String
  namespace_ : Option String
  ownerReferences : Option (List OwnerReference)
  resourceVersion : Option String
  selfLink : Option String
  uid : Option String
deriving Inhabited

namespace Metadata

def decode : Decoder Metadata :=
  Fields.named "ObjectMeta" <|
    Metadata.mk
      <$> Fields.nullable "annotations" (Decoder.map Decoder.text)
      <*> Fields.nullable "creationTimestamp" timestamp
      <*> Fields.nullable "deletionGracePeriodSeconds" Decoder.i64
      <*> Fields.nullable "deletionTimestamp" timestamp
      <*> Fields.nullable "finalizers" (Decoder.list Decoder.text)
      <*> Fields.nullable "generateName" Decoder.text
      <*> Fields.nullable "generation" Decoder.i64
      <*> Fields.nullable "labels" (Decoder.map Decoder.text)
      <*> Fields.nullable "managedFields" (Decoder.list ManagedFields.decode)
      <*> Fields.nullable "name" Decoder.text
      <*> Fields.nullable "namespace" Decoder.text
      <*> Fields.nullable "ownerReferences" (Decoder.list OwnerReference.decode)
      <*> Fields.nullable "resourceVersion" Decoder.text
      <*> Fields.nullable "selfLink" Decoder.text
      <*> Fields.nullable "uid" Decoder.text

def toJson (m : Metadata) : Json :=
  .record [("annotations", m.annotations.map .ofStrings),
    ("creationTimestamp", m.creationTimestamp.map fun t => .string t.text),
    ("deletionGracePeriodSeconds", m.deletionGracePeriodSeconds.map .int),
    ("deletionTimestamp", m.deletionTimestamp.map fun t => .string t.text),
    ("finalizers", m.finalizers.map fun fs => .array (fs.map .string)),
    ("generateName", m.generateName.map .string),
    ("generation", m.generation.map .int),
    ("labels", m.labels.map .ofStrings),
    ("managedFields", m.managedFields.map fun fs => .array (fs.map ManagedFields.toJson)),
    ("name", m.name.map .string),
    ("namespace", m.namespace_.map .string),
    ("ownerReferences", m.ownerReferences.map fun rs => .array (rs.map OwnerReference.toJson)),
    ("resourceVersion", m.resourceVersion.map .string),
    ("selfLink", m.selfLink.map .string),
    ("uid", m.uid.map .string)]

/-- The name, else the name a generated one starts with, else nothing. -/
def anyName (m : Metadata) : String := (m.name <|> m.generateName).getD ""

def isDeleting (m : Metadata) : Bool := m.deletionTimestamp.isSome

end Metadata

end MachineProvider.Kubernetes
