import MachineProvider.Actuator.Mapping
import MachineProvider.Actuator.Placement
import MachineProvider.Actuator.RootVolume
import MachineProvider.Actuator.UserData
import MachineProvider.Json.MergePatch
/-!
A machine's server from creation to deletion. No state is kept between operations: whether a
server exists is asked of the provider every time.
-/
namespace MachineProvider

open Cloud (Server ServerRequest)

structure Actuator where
  /-- The token of machines that name no secret for one. -/
  defaultToken : String
  taggingBackoff : Backoff
deriving Inhabited

/-- The patches of the main object and of the status that lead from one machine to another. -/
def Machine.patches (before after : Machine) : Option Json × Option Json :=
  let (main, status) := before.toJson.splitStatus
  let (main', status') := after.toJson.splitStatus
  (Json.diff main main', (Json.diff status status').map fun s => .record [("status", some s)])

namespace MachineContext

/-- Writes back what the server shows, main object first; no write without a difference. -/
def recordServer (ctx : MachineContext) (server : Server) : Attempt Unit := do
  let (main, status) := ctx.machine.patches (ctx.machine.withServer server)
  match main with
  | some patch => Attempt.control (.patchMachine ctx.space ctx.identity.name patch)
  | none => pure ()
  match status with
  | some patch => Attempt.control (.patchMachineStatus ctx.space ctx.identity.name patch)
  | none => pure ()

def serverName (ctx : MachineContext) : String :=
  if ctx.spec.baseDomain.isEmpty then ctx.identity.name
  else s!"{ctx.identity.name}.{ctx.spec.baseDomain}"

/-- The identity's tags win over those of the payload. -/
def serverRequest (ctx : MachineContext) (groups : List String) (userData : String) :
    ServerRequest where
  name := ctx.serverName
  flavor := ctx.spec.flavor
  image := ctx.spec.image
  zone := ctx.spec.zone
  volumeSizeGb := if 0 < ctx.spec.rootVolumeSizeGb then some ctx.spec.rootVolumeSizeGb else none
  interfaces := interfaceRequests ctx.spec.interfaces
  sshKeys := ctx.spec.sshKeys
  useIpv6 := ctx.spec.useIpv6
  groups := groups
  userData := userData
  tags := ctx.spec.tags.union ctx.identity.tags

/-- The payload's groups, and one more when it has an anti-affinity key. -/
def groups (ctx : MachineContext) : Attempt (List String) :=
  if ctx.spec.antiAffinityKey.isEmpty then return ctx.spec.serverGroups
  else do
    let group ← allocateGroup ctx.spec.zone ctx.spec.antiAffinityKey
    return ctx.spec.serverGroups ++ [group]

def createServer (ctx : MachineContext) (request : ServerRequest) : Attempt Server :=
  ExceptT.mk do
    let answer : Except Cloud.Error Server ← Program.perform (.cloud (.createServer request))
    return answer.mapError (.serverCreate ctx.identity.name request.summary)

def tagVolume (ctx : MachineContext) (server : Server) (schedule : Backoff) : Attempt Unit :=
  match ctx.spec.rootVolumeTags with
  | none => return ()
  | some tags =>
    ExceptT.mk do
      let outcome ← tagRootVolume server.uuid tags schedule
      return outcome.mapError fun
        | .timeout cause => .rootVolumeTagging ctx.identity.name server.uuid cause
        | .invalidDelay => .invalidDelay

/-- A server cannot change its zone or flavor. -/
def checkDrift (ctx : MachineContext) (server : Server) : Except Error Unit :=
  let check (field desired actual : String) : Except Error Unit :=
    if desired.isEmpty ∨ desired = actual then .ok ()
    else .error (.unsupportedChange ctx.identity.name field desired actual)
  do
    check "zone" ctx.spec.zone server.zone.slug
    check "flavor" ctx.spec.flavor server.flavor.slug

end MachineContext

namespace Actuator

/-- The context of a machine, once the provider has a client for its token. -/
def begin (a : Actuator) (m : Machine) : Attempt MachineContext := do
  let ctx ← m.context a.defaultToken
  Attempt.client ctx.token
  return ctx

/-- Creates the server and records it at once; a failure to tag its volume leaves it in place. -/
def create (a : Actuator) (m : Machine) : Attempt Unit := do
  let ctx ← a.begin m
  let userData ← loadUserData m ctx.space ctx.spec
  let groups ← ctx.groups
  let server ← ctx.createServer (ctx.serverRequest groups userData)
  ctx.recordServer server
  ctx.tagVolume server a.taggingBackoff

def exists_ (a : Actuator) (m : Machine) : Attempt Bool := do
  let ctx ← a.begin m
  let server ← ctx.identity.locate
  return server.isSome

/-- Records the live server; a difference that cannot be mended fails afterwards. -/
def update (a : Actuator) (m : Machine) : Attempt Unit := do
  let ctx ← a.begin m
  match ← ctx.identity.locate with
  | none => throw (.serverNotFound ctx.identity.name)
  | some server => do
    ctx.recordServer server
    Attempt.ofExcept (ctx.checkDrift server)

/-- A server that is already gone is no failure. -/
def delete (a : Actuator) (m : Machine) : Attempt Unit := do
  let ctx ← a.begin m
  match ← ctx.identity.locate with
  | none => return ()
  | some server => Attempt.cloud (.deleteServer server.uuid)

end Actuator

end MachineProvider
