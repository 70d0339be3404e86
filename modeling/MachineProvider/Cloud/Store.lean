import MachineProvider.Cloud.Call
/-!
A provider in memory. Servers and groups stay in the order they were made; a server appears in
every group it names, and leaves them when it is deleted. Failures can be set per kind of call, and
a new server's root volume can stay hidden for a number of reads.
-/
namespace MachineProvider.Cloud

structure Store where
  servers : List Server
  groups : List ServerGroup
  volumeTags : StringMap Tags
  /-- Reads for which the volumes of a server stay hidden. -/
  hiddenReads : StringMap Nat
  /-- Reads for which the volumes of servers made from now on stay hidden. -/
  volumeDelay : Nat
  failures : List (Operation × String)
  calls : List Call
  /-- How many identifiers have been given out. -/
  issued : Nat
deriving Inhabited

namespace Store

def empty : Store := default

def apiAddress : String := "https://api.cloudscale.ch/v1/"

def serverHref (uuid : String) : String := s!"{apiAddress}servers/{uuid}"

def groupHref (uuid : String) : String := s!"{apiAddress}server-groups/{uuid}"

/-- The identifier with a number, at least four digits wide. -/
def identifier (n : Nat) : String :=
  let digits := toString n
  "uuid-" ++ String.ofList (List.replicate (4 - digits.length) '0') ++ digits

/-- The next identifier, and the store without it. -/
def fresh (s : Store) : String × Store :=
  (identifier (s.issued + 1), { s with issued := s.issued + 1 })

def addServer (s : Store) (server : Server) : Store := { s with servers := s.servers ++ [server] }

def addGroup (s : Store) (group : ServerGroup) : Store := { s with groups := s.groups ++ [group] }

/-- Lets every later call of a kind fail; a second message replaces the first. -/
def fail (s : Store) (operation : Operation) (text : String) : Store :=
  { s with failures := (operation, text) :: s.failures.filter (·.1 ≠ operation) }

def failure? (s : Store) (operation : Operation) : Option String := s.failures.lookup operation

/-- A server that runs already, with the next identifier. -/
def newServer (s : Store) (name zone : String) (tags : Tags) : Server × Store :=
  let (uuid, s) := s.fresh
  let server : Server := { (default : Server) with
    href := serverHref uuid
    uuid := uuid
    name := name
    status := "running"
    zone := ⟨zone⟩
    flavor := ⟨"flex-16-4", "Flex-16-4", 4, 16⟩
    image := ⟨"rhcos-4.15", "RHCOS 4.15"⟩
    tags := tags }
  (server, s.addServer server)

def member (uuid : String) : ServerStub := ⟨uuid, serverHref uuid⟩

/-- As many placeholder members as asked for. -/
def newMembers (s : Store) : Nat → List ServerStub × Store
  | 0 => ([], s)
  | n + 1 =>
    let (uuid, s) := s.fresh
    let (rest, s) := newMembers s n
    (member uuid :: rest, s)

/-- An anti-affinity group with placeholder members. -/
def newGroup (s : Store) (name zone : String) (tags : Tags) (members : Nat) : ServerGroup × Store :=
  let (uuid, s) := s.fresh
  let (servers, s) := s.newMembers members
  let group : ServerGroup := ⟨groupHref uuid, uuid, name, "anti-affinity", ⟨zone⟩, servers, tags⟩
  (group, s.addGroup group)

/-- The interface on the public network. -/
def publicInterface (host : Nat) : Interface where
  type := "public"
  network := ⟨"public", "public"⟩
  addresses := [{ (default : Address) with
    version := 4, address := s!"192.0.2.{host}", prefixLength := 24 }]

/-- A fixed address; an empty one is chosen by the provider. -/
def privateAddress (host : Nat) (a : AddressRequest) : Address where
  version := 4
  address := if a.address.isEmpty then s!"10.0.0.{host}" else a.address
  prefixLength := 24
  gateway := none
  reversePtr := none
  subnet := ⟨a.subnet, "10.0.0.0/24"⟩

def attach (host : Nat) (i : InterfaceRequest) : Interface :=
  if i.network = "public" then publicInterface host
  else
    { type := "private"
      network := ⟨i.network, "private"⟩
      addresses := (i.addresses.getD []).map (privateAddress host) }

def interfacesFor (host : Nat) : Option (List InterfaceRequest) → List Interface
  | none => [publicInterface host]
  | some requested => requested.map (attach host)

/-- Adds a member to the first group with an identifier. -/
def joinGroup (uuid : String) (stub : ServerStub) : List ServerGroup → List ServerGroup
  | [] => []
  | g :: gs =>
    if g.uuid = uuid then { g with servers := g.servers ++ [stub] } :: gs
    else g :: joinGroup uuid stub gs

/-- How a server names a group it asked for; an unknown group has neither name nor address. -/
def groupStub (groups : List ServerGroup) (uuid : String) : GroupStub :=
  match groups.find? (·.uuid = uuid) with
  | some g => ⟨uuid, g.name, g.href⟩
  | none => ⟨uuid, "", ""⟩

/-- The server for a request under the identifiers of server and volume. -/
def build (s : Store) (request : ServerRequest) (uuid volume : String) : Server where
  href := serverHref uuid
  uuid := uuid
  name := request.name
  status := "running"
  zone := ⟨request.zone⟩
  flavor := ⟨request.flavor, request.flavor, 0, 0⟩
  image := ⟨request.image, request.image⟩
  volumes := [⟨volume, s!"{request.name}-root", "ssd", "/dev/vda", request.volumeSizeGb.getD 10⟩]
  interfaces := interfacesFor (s.servers.length + 10) request.interfaces
  groups := request.groups.map (groupStub s.groups)
  tags := request.tags
  createdAt := none

/-- The answer never shows the root volume of the new server. -/
def createServer (s : Store) (request : ServerRequest) : Server × Store :=
  let (uuid, s) := s.fresh
  let (volume, s) := s.fresh
  let server := s.build request uuid volume
  ({ server with volumes := [] },
    { s with
      servers := s.servers ++ [server]
      groups := request.groups.foldl (fun gs g => joinGroup g (member uuid) gs) s.groups
      hiddenReads :=
        if 0 < s.volumeDelay then s.hiddenReads.insert uuid s.volumeDelay else s.hiddenReads })

def getServer (s : Store) (uuid : String) : Except Error Server × Store :=
  match s.servers.find? (·.uuid = uuid) with
  | none => (.error (.notFound s!"Server {uuid} not found"), s)
  | some server =>
    match s.hiddenReads.get? uuid with
    | some (n + 1) =>
      (.ok { server with volumes := [] }, { s with hiddenReads := s.hiddenReads.insert uuid n })
    | _ => (.ok server, s)

def admits (filter : Option TagFilter) (tags : Tags) : Bool :=
  match filter with
  | none => true
  | some f => f.holds tags

def listServers (s : Store) (filter : Option TagFilter) : List Server :=
  s.servers.filter fun server => admits filter server.tags

def leaveGroup (uuid : String) (g : ServerGroup) : ServerGroup :=
  { g with servers := g.servers.filter (·.uuid ≠ uuid) }

def deleteServer (s : Store) (uuid : String) : Except Error Unit × Store :=
  if s.servers.any (·.uuid = uuid) then
    (.ok (), { s with
      servers := s.servers.filter (·.uuid ≠ uuid)
      groups := s.groups.map (leaveGroup uuid) })
  else (.error (.notFound s!"Server {uuid} not found"), s)

def createGroup (s : Store) (request : GroupRequest) : ServerGroup × Store :=
  let (uuid, s) := s.fresh
  let group : ServerGroup :=
    ⟨groupHref uuid, uuid, request.name, request.type, ⟨request.zone⟩, [], request.tags⟩
  (group, s.addGroup group)

def listGroups (s : Store) (filter : Option TagFilter) : List ServerGroup :=
  s.groups.filter fun group => admits filter group.tags

def hasVolume (s : Store) (uuid : String) : Bool :=
  s.servers.any fun server => server.volumes.any (·.uuid = uuid)

def updateVolume (s : Store) (uuid : String) (request : VolumeRequest) :
    Except Error Unit × Store :=
  if s.hasVolume uuid then (.ok (), { s with volumeTags := s.volumeTags.insert uuid request.tags })
  else (.error (.notFound s!"Volume {uuid} not found"), s)

/-- What a call does when no failure is set for it. -/
def perform (s : Store) : (c : Call) → Except Error c.Result × Store
  | .createServer r => let (server, s) := s.createServer r; (.ok server, s)
  | .getServer uuid => s.getServer uuid
  | .listServers f => (.ok (s.listServers f), s)
  | .deleteServer uuid => s.deleteServer uuid
  | .createGroup r => let (group, s) := s.createGroup r; (.ok group, s)
  | .listGroups f => (.ok (s.listGroups f), s)
  | .updateVolume uuid r => s.updateVolume uuid r

/-- Logs a call and answers it; a call set to fail changes nothing else. -/
def answer (s : Store) (c : Call) : Except Error c.Result × Store :=
  let s := { s with calls := s.calls ++ [c] }
  match s.failure? c.operation with
  | some text => (.error (.api text), s)
  | none => s.perform c

/-- The tags of volumes that exist, in the order of their servers. -/
def taggedVolumes (s : Store) : List (String × Tags) :=
  s.servers.flatMap fun server => server.volumes.filterMap fun v =>
    (s.volumeTags.get? v.uuid).map fun tags => (v.uuid, tags)

end Store

end MachineProvider.Cloud
