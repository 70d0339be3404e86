import MachineProvider.Cloud.Request
import MachineProvider.Machine.Basic
import MachineProvider.Payload.Envelope
/-! Servers seen as machines, and interfaces of a machine as a request to the provider. -/
namespace MachineProvider

open Cloud (AddressRequest InterfaceRequest Server)

def instanceTypeLabel : String := "machine.openshift.io/instance-type"

def regionLabel : String := "machine.openshift.io/region"

def zoneLabel : String := "machine.openshift.io/zone"

/-- The network every public interface is on. -/
def publicNetwork : String := "public"

def providerId (uuid : String) : String := "cloudscale://" ++ uuid

/-- The zone without its trailing digits. -/
def regionOfZone (zone : String) : String :=
  String.ofList (zone.toList.reverse.dropWhile Char.isDigit).reverse

/-- The part of a name in front of its first dot. -/
def hostname (name : String) : String := String.ofList (name.toList.takeWhile (· != '.'))

def interfaceAddresses (i : Cloud.Interface) : List MachineAddress :=
  let type := if i.type = publicNetwork then MachineAddressType.externalIp else .internalIp
  i.addresses.map fun a => ⟨type, a.address⟩

/-- The name as host name and as internal DNS name, the bare host name of a name with a domain,
then every interface address. -/
def machineAddresses (server : Server) : List MachineAddress :=
  let bare := hostname server.name
  [⟨.hostname, server.name⟩, ⟨.internalDns, server.name⟩] ++
    (if bare = server.name then [] else [⟨.internalDns, bare⟩]) ++
    server.interfaces.flatMap interfaceAddresses

/-- The status payload for a server. -/
def observedStatus (server : Server) : ProviderStatus := ⟨server.uuid, server.status, []⟩

/-- The machine with the observed server on it. -/
def Machine.withServer (m : Machine) (server : Server) : Machine :=
  let labels := ((m.labels.insert instanceTypeLabel server.flavor.slug).insert regionLabel
    (regionOfZone server.zone.slug)).insert zoneLabel server.zone.slug
  { metadata := { m.metadata with labels := some labels }
    spec := { m.spec with providerId := some (providerId server.uuid) }
    status := some { m.status.getD default with
      addresses := machineAddresses server
      providerStatus := some (observedStatus server).toRaw } }

def InterfaceSpec.request (i : InterfaceSpec) : InterfaceRequest :=
  match i.type with
  | .publicNetwork => ⟨publicNetwork, none⟩
  | .privateNetwork =>
    ⟨i.networkUuid, i.addresses.map fun as => as.map fun a => ⟨a.subnetUuid, a.address⟩⟩

/-- The interfaces to ask for; none at all leaves the choice to the provider. -/
def interfaceRequests (interfaces : List InterfaceSpec) : Option (List InterfaceRequest) :=
  if interfaces.isEmpty then none else some (interfaces.map InterfaceSpec.request)

end MachineProvider
