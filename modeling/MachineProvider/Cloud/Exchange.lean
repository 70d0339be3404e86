import MachineProvider.Cloud.Call
import MachineProvider.Http.Status
import MachineProvider.Http.Target
import MachineProvider.Json.Parser
/-!
Provider calls over HTTP: the request a call sends, and what the reply means. A failed call names
its method, path and status; a body that cannot be read is quoted by its beginning.
-/
namespace MachineProvider.Cloud

open Json (Decoder)

/-- The address an interface is reached at, without slashes at its end. -/
def trimAddress (address : String) : String :=
  String.ofList (address.toList.reverse.dropWhile (· == '/')).reverse

structure Client where
  address : String
  token : String
deriving Inhabited

namespace Client

def new (address token : String) : Client := ⟨trimAddress address, token⟩

/-- A path below the address; a path that is an address itself stays as it is. -/
def url (c : Client) (path : String) : String :=
  if path.startsWith "http" then path else c.address ++ path

def authorization (c : Client) : String := "Bearer " ++ c.token

end Client

/-- Builds clients for tokens, all with one user agent. -/
structure Factory where
  address : String
  userAgent : String
deriving Inhabited

namespace Factory

def new (address userAgent : String) : Except Error Factory :=
  if Http.isHeaderValue userAgent then .ok ⟨address, userAgent⟩ else .error .http

/-- An empty token gets no client. -/
def client (f : Factory) (token : String) : Except Error Client :=
  if token.isEmpty then .error (.authentication "no API token configured")
  else .ok (Client.new f.address token)

end Factory

inductive Method where
  | get
  | post
  | patch
  | delete
deriving DecidableEq

def Method.text : Method → String
  | .get => "GET"
  | .post => "POST"
  | .patch => "PATCH"
  | .delete => "DELETE"

/-- The path of a list, narrowed by a filter. -/
def listPath (resource : String) : Option TagFilter → String
  | none => s!"/v1/{resource}"
  | some f => s!"/v1/{resource}?{f.query}"

namespace Call

def method : Call → Method
  | createServer _ => .post
  | getServer _ => .get
  | listServers _ => .get
  | deleteServer _ => .delete
  | createGroup _ => .post
  | listGroups _ => .get
  | updateVolume _ _ => .patch

def path : Call → String
  | createServer _ => "/v1/servers"
  | getServer uuid => s!"/v1/servers/{uuid}"
  | listServers f => listPath "servers" f
  | deleteServer uuid => s!"/v1/servers/{uuid}"
  | createGroup _ => "/v1/server-groups"
  | listGroups f => listPath "server-groups" f
  | updateVolume uuid _ => s!"/v1/volumes/{uuid}"

def body : Call → Option Json
  | createServer r => some r.written
  | createGroup r => some r.toJson
  | updateVolume _ r => some r.toJson
  | _ => none

end Call

/-- A request as the server sees it. -/
structure Request where
  method : Method
  target : String
  authorization : String
  userAgent : Option String
  body : Option Json

/-- How a server reacts to a request. -/
inductive Reply where
  | hangup
  /-- A reply whose body breaks off before its announced end. -/
  | cut (status : Nat)
  | full (status : Nat) (body : Text.Bytes)

/-- The text of a body; one that cannot be read to its end has none. -/
def Reply.text : Reply → Option String
  | hangup => none
  | cut status => if Http.isBodiless status then some "" else none
  | full status body => some (if Http.isBodiless status then "" else Text.ofUtf8Lossy body)

def failure (method : Method) (path : String) (status : Nat) (body : String) : Error :=
  if status = 404 then .notFound s!"Resource not found: {path} - {body}"
  else if status = 401 ∨ status = 403 then
    .authentication s!"{method.text} {path} rejected: {Http.statusText status} - {body}"
  else .api s!"{method.text} {path} failed: {Http.statusText status} - {body}"

/-- How many characters of an unreadable body are quoted. -/
def quotedCharacters : Nat := 500

def unreadable (path body : String) : Error :=
  .api (s!"error decoding response body of {path}: <json error> - Response (first " ++
    s!"{quotedCharacters} chars): {String.ofList (body.toList.take quotedCharacters)}")

/-- The value in a body. -/
def readBody {α : Type} (decode : Decoder α) (path : String) : Option String → Except Error α
  | none => .error .http
  | some body =>
    match (Json.parseWritten? body).map decode with
    | some (.ok a) => .ok a
    | _ => .error (unreadable path body)

/-- The result of a successful reply; calls without a result ignore the body. -/
def Call.readResult (c : Call) (body : Option String) : Except Error c.Result :=
  match c with
  | .createServer r => readBody Server.decode (Call.createServer r).path body
  | .getServer uuid => readBody Server.decode (Call.getServer uuid).path body
  | .listServers f => readBody (Decoder.list Server.decode) (Call.listServers f).path body
  | .deleteServer _ => .ok ()
  | .createGroup r => readBody ServerGroup.decode (Call.createGroup r).path body
  | .listGroups f => readBody (Decoder.list ServerGroup.decode) (Call.listGroups f).path body
  | .updateVolume _ _ => .ok ()

def Call.readReply (c : Call) (reply : Reply) : Except Error c.Result :=
  let judge (status : Nat) : Except Error c.Result :=
    if Http.isSuccess status then c.readResult reply.text
    else .error (failure c.method c.path status (reply.text.getD ""))
  match reply with
  | .hangup => .error .http
  | .cut status => judge status
  | .full status _ => judge status

/-- The scheme, host and port of the server behind an address. -/
def serverHost : String := "http://host"

/-- The request of a call to an address on the server; none when it cannot be sent. -/
def Call.request (c : Call) (client : Client) (userAgent : Option String) : Option Request :=
  let url := client.url c.path
  if !Http.isHeaderValue client.authorization then none
  else
    (Http.target? (String.ofList (url.toList.drop serverHost.length))).map fun target =>
      ⟨c.method, target, client.authorization, userAgent, c.body⟩

/-- A call to a server that reacts with one reply: the request that arrived, and the result. -/
def exchange (c : Call) (client : Client) (userAgent : Option String) (reply : Reply) :
    Option Request × Except Error c.Result :=
  match c.request client userAgent with
  | none => (none, .error .http)
  | some request => (some request, c.readReply reply)

end MachineProvider.Cloud
