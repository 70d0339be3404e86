import MachineProvider.Http.Status
import MachineProvider.Json.Parser
import MachineProvider.Json.Printer
import MachineProvider.Machine.Basic
import MachineProvider.Program
/-!
Control-plane requests over HTTP: the request of each call, and what the reply means. A reply with
an error status is described by its body, or by the status when the body is no description.
-/
namespace MachineProvider.Kubernetes

open Json (Decoder Fields)

structure Request where
  method : String
  uri : String
  contentType : Option String
  body : Json

/-- A reply to a request. -/
structure Reply where
  status : Nat
  body : String

/-- Bytes that may stand in a path as they are. -/
def isPathByte (n : Nat) : Bool :=
  n == 0x21 || (0x24 ≤ n && n ≤ 0x3b) || n == 0x3d || (0x40 ≤ n && n ≤ 0x5f) ||
    (0x61 ≤ n && n ≤ 0x7e) || 0x7f ≤ n || n == 0x22

/-- Bytes that may stand in a query as they are. -/
def isQueryByte (n : Nat) : Bool :=
  n == 0x21 || (0x24 ≤ n && n ≤ 0x3b) || n == 0x3d || 0x3f ≤ n

/-- The longest address. -/
def maxUriLength : Nat := 65534

/-- The part of a text that is sent as an address; none if a character may not stand in one. -/
def uri? (text : String) : Option String :=
  let sent := text.toList.takeWhile (· != '#')
  let path := sent.takeWhile (· != '?')
  let query := (sent.dropWhile (· != '?')).drop 1
  if maxUriLength < text.utf8ByteSize then none
  else if path.all (isPathByte ·.toNat) && query.all (isQueryByte ·.toNat) then
    some (String.ofList sent)
  else none

/-- A request, if its address can be built. -/
def build (method uri : String) (contentType : Option String) (body : Json) :
    Except ControlError Request :=
  match uri? uri with
  | some uri => .ok ⟨method, uri, contentType, body⟩
  | none => .error .noRequest

/-- A name that addresses an object must not be empty. -/
def checkName (name : String) : Except ControlError Unit :=
  if name.isEmpty then .error .noRequest else .ok ()

def secretsPath (space : String) : String := s!"/api/v1/namespaces/{space}/secrets"

def machinePath (space resource : String) : String :=
  s!"/apis/{machineApiVersion}/namespaces/{space}/{resource}"

def mergePatch (uri : String) (patch : Json) : Except ControlError Request :=
  build "PATCH" uri (some "application/merge-patch+json") patch

def request : ControlCall → Except ControlError Request
  | .getSecret space name => do
    checkName name
    build "GET" s!"{secretsPath space}/{name}" none .null
  | .listSecrets space selector =>
    build "GET" s!"{secretsPath space}?&labelSelector={Text.formEncode selector}" none .null
  | .patchMachine space name patch => do
    checkName name
    mergePatch (machinePath space "machines" ++ "/" ++ name ++ "?") patch
  | .patchMachineStatus space name patch => do
    checkName name
    mergePatch (machinePath space "machines" ++ "/" ++ name ++ "/status?") patch
  | .patchMachineSet space name patch => do
    checkName name
    mergePatch (machinePath space "machinesets" ++ "/" ++ name ++ "?") patch

/-- What an error reply says about itself. -/
structure StatusBody where
  status : String
  message : String
  reason : String
  code : Nat

def StatusBody.decode : Decoder StatusBody :=
  Fields.record "ErrorResponse" <|
    StatusBody.mk
      <$> Fields.required "status" Decoder.text
      <*> Fields.optional "message" Decoder.text ""
      <*> Fields.optional "reason" Decoder.text ""
      <*> Fields.required "code" Decoder.u16

def errorOf (r : Reply) : ControlError :=
  match (Json.parseWritten? r.body).map StatusBody.decode with
  | some (.ok s) => .api s.status s.message s.reason s.code
  | _ =>
    .api (Http.statusText r.status) (Text.quoted r.body) "Failed to parse error data" r.status

/-- The object in a reply. -/
def readObject {α : Type} (decode : Decoder α) (r : Reply) : Except ControlError α :=
  if Http.isError r.status then .error (errorOf r)
  else
    match (Json.parseWritten? r.body).map decode with
    | some (.ok a) => .ok a
    | _ => .error .undecodable

/-- The metadata of a list. -/
def listMetadata : Decoder Unit :=
  Fields.named "ListMeta" <|
    (fun _ _ _ _ => ())
      <$> Fields.nullable "continue" Decoder.text
      <*> Fields.nullable "remainingItemCount" Decoder.i64
      <*> Fields.nullable "resourceVersion" Decoder.text
      <*> Fields.nullable "selfLink" Decoder.text

def secretList : Decoder (List Secret) :=
  Fields.named "ObjectList" <|
    (fun _ items => items)
      <$> Fields.required "metadata" listMetadata
      <*> Fields.required "items" (Decoder.orDefault (Decoder.list Secret.decode))

/-- A missing secret is no failure. -/
def absentIfMissing : Except ControlError Secret → Except ControlError (Option Secret)
  | .ok s => .ok (some s)
  | .error (.api status message reason code) =>
    if reason = "NotFound" then .ok none else .error (.api status message reason code)
  | .error e => .error e

def readReply (c : ControlCall) (r : Reply) : Except ControlError c.Result :=
  match c with
  | .getSecret _ _ => absentIfMissing (readObject Secret.decode r)
  | .listSecrets _ _ => readObject secretList r
  | .patchMachine _ _ _ => (readObject Machine.decode r).map fun _ => ()
  | .patchMachineStatus _ _ _ => (readObject Machine.decode r).map fun _ => ()
  | .patchMachineSet _ _ _ => (readObject MachineSet.decode r).map fun _ => ()

end MachineProvider.Kubernetes
