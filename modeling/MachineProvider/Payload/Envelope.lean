import MachineProvider.Payload.Status
/-!
Provider payloads inside opaque documents: each names its version and kind. An absent or null
document is the default payload.
-/
namespace MachineProvider

open Json (DecodeError)

/-- The versions a payload can be written in. -/
inductive PayloadVersion where
  | v1beta1
deriving DecidableEq

namespace PayloadVersion

def text : PayloadVersion → String
  | .v1beta1 => "machine.appuio.io/v1beta1"

def parse (s : String) : Option PayloadVersion := if s = v1beta1.text then some v1beta1 else none

/-- The version that is written. -/
def latest : PayloadVersion := v1beta1

end PayloadVersion

inductive PayloadError where
  | decode (kind : String) (cause : DecodeError)
  | unsupportedVersion (kind version : String)
  | unexpectedKind (expected actual : String)

def PayloadError.message : PayloadError → String
  | .decode kind cause => s!"error unmarshalling {kind}: {cause.message}"
  | .unsupportedVersion kind version => s!"unsupported apiVersion {Text.quoted version} for {kind}"
  | .unexpectedKind expected actual => s!"expected kind {expected}, got {Text.quoted actual}"

namespace Payload

/-- The text of a marker; a marker that is no text counts as absent. -/
def marker? (name : String) (raw : Json) : Option String := (raw.get? name).bind Json.asString?

/-- Whether the markers of a document admit a payload of a kind. -/
def checkMarkers (kind : String) (raw : Json) : Except PayloadError Unit :=
  match marker? "apiVersion" raw with
  | some version =>
    match PayloadVersion.parse version with
    | none => .error (.unsupportedVersion kind version)
    | some _ => checkKind
  | none => checkKind
where
  checkKind : Except PayloadError Unit :=
    match marker? "kind" raw with
    | some actual => if actual = kind then .ok () else .error (.unexpectedKind kind actual)
    | none => .ok ()

def open_ {α : Type} [Inhabited α] (kind : String) (decode : Json.Decoder α) :
    Option Json → Except PayloadError α
  | none => .ok default
  | some .null => .ok default
  | some raw => do
    checkMarkers kind raw
    (decode raw).mapError (.decode kind)

def close (kind : String) (members : List (String × Option Json)) : Json :=
  .record (members ++
    [("apiVersion", some (.string PayloadVersion.latest.text)), ("kind", some (.string kind))])

end Payload

def ProviderSpec.ofRaw (raw : Option Json) : Except PayloadError ProviderSpec :=
  Payload.open_ ProviderSpec.kind ProviderSpec.decode raw

def ProviderSpec.toRaw (s : ProviderSpec) : Json := Payload.close ProviderSpec.kind s.members

def ProviderStatus.ofRaw (raw : Option Json) : Except PayloadError ProviderStatus :=
  Payload.open_ ProviderStatus.kind ProviderStatus.decode raw

def ProviderStatus.toRaw (s : ProviderStatus) : Json := Payload.close ProviderStatus.kind s.members

end MachineProvider
