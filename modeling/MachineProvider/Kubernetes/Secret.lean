import MachineProvider.Kubernetes.Metadata
import MachineProvider.Text.Base64
/-! Secrets: named byte values, written in base64. -/
namespace MachineProvider.Kubernetes

open Json (Decoder Fields)

/-- A marker that, when present, must have one value. -/
def marker (name expected : String) : Fields Unit :=
  Fields.optional name
    (fun v => do
      let s ← Decoder.text v
      if s = expected then .ok () else .error (.wrongValue v expected))
    ()

structure Secret where
  data : Option (StringMap Text.Bytes)
  immutable : Option Bool
  metadata : Metadata
  stringData : Option (StringMap String)
  type : Option String
deriving Inhabited

namespace Secret

/-- Bytes in base64; null is no bytes. -/
def bytes : Decoder Text.Bytes
  | .null => .ok []
  | .string s => (Text.Base64.decode (Text.utf8 s)).mapError fun e => .malformed e.message
  | v => .error (.wrongType v "a base64-encoded string")

def decode : Decoder Secret :=
  Fields.named "Secret" <|
    (fun _ _ => Secret.mk)
      <$> marker "apiVersion" "v1"
      <*> marker "kind" "Secret"
      <*> Fields.nullable "data" (Decoder.map bytes)
      <*> Fields.nullable "immutable" Decoder.flag
      <*> field "metadata" Metadata.decode
      <*> Fields.nullable "stringData" (Decoder.map Decoder.text)
      <*> Fields.nullable "type" Decoder.text

def toJson (s : Secret) : Json :=
  .record [("apiVersion", some (.string "v1")),
    ("kind", some (.string "Secret")),
    ("data", s.data.map fun d => .ofStrings (d.map Text.Base64.encode)),
    ("immutable", s.immutable.map .bool),
    ("metadata", some s.metadata.toJson),
    ("stringData", s.stringData.map .ofStrings),
    ("type", s.type.map .string)]

/-- Every key with its value as text, invalid bytes replaced. -/
def texts (s : Secret) : StringMap String := (s.data.getD .empty).map Text.ofUtf8Lossy

end Secret

end MachineProvider.Kubernetes
