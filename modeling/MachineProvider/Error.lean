import MachineProvider.Cloud.Error
import MachineProvider.Payload.Envelope
/-! Why an operation on a machine fails. -/
namespace MachineProvider

/-- Why a control-plane request fails. -/
inductive ControlError where
  | api (status message reason : String) (code : Nat)
  | undecodable
  | noRequest
  | unusable
deriving DecidableEq

def ControlError.message : ControlError → String
  | .api status message reason code =>
    "ApiError: " ++ message ++ ": " ++ reason ++ " (ErrorResponse \x7b status: " ++
      Text.quoted status ++ ", message: " ++ Text.quoted message ++ ", reason: " ++
      Text.quoted reason ++ ", code: " ++ toString code ++ " \x7d)"
  | .undecodable => "response cannot be decoded"
  | .noRequest => "request cannot be built"
  | .unusable => "no usable configuration"

/-- Why a template gives no user data. -/
inductive RenderError where
  | evaluation
  | invalidJson
  /-- The template's text stops the whole operation without an answer. -/
  | aborted
deriving DecidableEq

def RenderError.message : RenderError → String
  | .evaluation => "template evaluation failed"
  | .invalidJson => "template output is not valid JSON"
  | .aborted => "aborted"

/-- Why one attempt to tag a root volume fails. -/
inductive AttemptError where
  | noVolumes
  | emptyVolumeUuid
  | provider (text : String)
deriving DecidableEq

def AttemptError.message : AttemptError → String
  | .noVolumes => "server has no volumes yet"
  | .emptyVolumeUuid => "root volume has no UUID yet"
  | .provider text => text

/-- Tagging gave up after its last attempt. -/
structure TaggingTimeout where
  attempts : Nat
  lastError : AttemptError
deriving DecidableEq

def TaggingTimeout.message (t : TaggingTimeout) : String :=
  s!"timed out after {t.attempts} attempts (last error: {t.lastError.message})"

inductive Error where
  | control (cause : ControlError)
  | cloud (cause : Cloud.Error)
  | payload (cause : PayloadError)
  | render (cause : RenderError)
  | invalidConfig (text : String)
  | missingClusterId (label machine : String)
  | secretNotFound (space secret : String)
  | secretKeyMissing (secret key : String)
  | ambiguousIdentity (name clusterId : String) (uuids : List String)
  | serverNotFound (machine : String)
  | serverCreate (machine request : String) (cause : Cloud.Error)
  | rootVolumeTagging (machine server : String) (cause : TaggingTimeout)
  | unsupportedChange (machine field desired actual : String)
  | watch (text : String)
  /-- A delay of the retry schedule is no duration. -/
  | invalidDelay

namespace Error

open Text (quoted quotedList)

def message : Error → String
  | control cause => s!"Kubernetes error: {cause.message}"
  | cloud cause => s!"cloudscale error: {cause.message}"
  | payload cause => s!"provider payload error: {cause.message}"
  | render cause => s!"failed to render user data: {cause.message}"
  | invalidConfig text => s!"Invalid configuration: {text}"
  | missingClusterId label machine =>
    s!"cluster ID label {quoted label} not found on machine {quoted machine}"
  | secretNotFound space secret => s!"secret {quoted secret} not found in namespace {quoted space}"
  | secretKeyMissing secret key => s!"key {quoted key} not found in secret {quoted secret}"
  | ambiguousIdentity name clusterId uuids =>
    s!"found multiple servers with name {quoted name} in cluster {quoted clusterId}: " ++
      quotedList uuids
  | serverNotFound machine => s!"server for machine {quoted machine} not found"
  | serverCreate machine request cause =>
    s!"failed to create server for machine {quoted machine}: {cause.message} (request: {request})"
  | rootVolumeTagging machine server cause =>
    s!"failed to tag root volume of machine {quoted machine}: server {server} exists and was " ++
      s!"not rolled back: {cause.message}"
  | unsupportedChange machine field desired actual =>
    s!"machine {quoted machine}: changing {field} from {quoted actual} to {quoted desired} " ++
      "is not supported"
  | watch text => s!"Resource watch failed: {text}"
  | invalidDelay => "invalid delay"

end Error

end MachineProvider
