import MachineProvider.Cloud.Server
import MachineProvider.Json.Printer
/-!
Requests to the provider. Tags and keys are always written, since the provider tells an absent
container from an empty one.
-/
namespace MachineProvider.Cloud

open Json (Decoder Fields)

/-- Text that is left out when empty. -/
def someText (s : String) : Option Json := if s.isEmpty then none else some (.string s)

/-- The members that are present, in the order given. -/
def present (ms : List (String × Option Json)) : Json :=
  .object (ms.filterMap fun (k, v) => v.map (k, ·))

structure AddressRequest where
  subnet : String
  address : String
deriving Inhabited, DecidableEq

namespace AddressRequest

def decode : Decoder AddressRequest :=
  Fields.record "AddressRequest" (AddressRequest.mk <$> textField "subnet" <*> textField "address")

def written (a : AddressRequest) : Json :=
  present [("subnet", someText a.subnet), ("address", someText a.address)]

end AddressRequest

/-- An interface to attach: the public network, or a private one by its identifier. -/
structure InterfaceRequest where
  network : String
  addresses : Option (List AddressRequest)
deriving Inhabited, DecidableEq

namespace InterfaceRequest

def decode : Decoder InterfaceRequest :=
  Fields.record "InterfaceRequest" <|
    InterfaceRequest.mk
      <$> textField "network"
      <*> Fields.nullable "addresses" (Decoder.list AddressRequest.decode)

def written (i : InterfaceRequest) : Json :=
  present [("network", someText i.network),
    ("addresses", i.addresses.map fun as => .array (as.map AddressRequest.written))]

end InterfaceRequest

structure ServerRequest where
  name : String
  flavor : String
  image : String
  zone : String
  volumeSizeGb : Option Nat
  interfaces : Option (List InterfaceRequest)
  sshKeys : List String
  useIpv6 : Option Bool
  groups : List String
  userData : String
  tags : Tags
deriving Inhabited, DecidableEq

namespace ServerRequest

def decode : Decoder ServerRequest :=
  Fields.record "ServerRequest" <|
    ServerRequest.mk
      <$> Fields.required "name" Decoder.text
      <*> Fields.required "flavor" Decoder.text
      <*> Fields.required "image" Decoder.text
      <*> textField "zone"
      <*> Fields.nullable "volume_size_gb" Decoder.u32
      <*> Fields.nullable "interfaces" (Decoder.list InterfaceRequest.decode)
      <*> Fields.optional "ssh_keys" (Decoder.list Decoder.text) []
      <*> Fields.nullable "use_ipv6" Decoder.flag
      <*> Fields.optional "server_groups" (Decoder.list Decoder.text) []
      <*> textField "user_data"
      <*> Fields.optional "tags" (Decoder.map Decoder.text) .empty

def written (r : ServerRequest) : Json :=
  present [("name", some (.string r.name)),
    ("flavor", some (.string r.flavor)),
    ("image", some (.string r.image)),
    ("zone", someText r.zone),
    ("volume_size_gb", r.volumeSizeGb.map .nat),
    ("interfaces", r.interfaces.map fun is => .array (is.map InterfaceRequest.written)),
    ("ssh_keys", some (.array (r.sshKeys.map .string))),
    ("use_ipv6", r.useIpv6.map .bool),
    ("server_groups", if r.groups.isEmpty then none else some (.array (r.groups.map .string))),
    ("user_data", someText r.userData),
    ("tags", some (.ofStrings r.tags))]

def toJson (r : ServerRequest) : Json := r.written.canonical

/-- The request for a message, with the user data reduced to its size. -/
def summary (r : ServerRequest) : String :=
  let size := r.userData.utf8ByteSize
  let shown := if r.userData.isEmpty then r else { r with userData := s!"<{size} bytes>" }
  shown.written.render

end ServerRequest

structure GroupRequest where
  name : String
  type : String
  zone : String
  tags : Tags
deriving Inhabited, DecidableEq

namespace GroupRequest

def decode : Decoder GroupRequest :=
  Fields.record "ServerGroupRequest" <|
    GroupRequest.mk
      <$> Fields.required "name" Decoder.text
      <*> Fields.required "type" Decoder.text
      <*> Fields.required "zone" Decoder.text
      <*> Fields.optional "tags" (Decoder.map Decoder.text) .empty

def toJson (r : GroupRequest) : Json :=
  .record [("name", some (.string r.name)), ("type", some (.string r.type)),
    ("zone", some (.string r.zone)), ("tags", some (.ofStrings r.tags))]

end GroupRequest

/-- A change of a volume's tags. -/
structure VolumeRequest where
  tags : Tags
deriving Inhabited, DecidableEq

namespace VolumeRequest

def decode : Decoder VolumeRequest :=
  Fields.record "VolumeRequest" <|
    VolumeRequest.mk <$> Fields.required "tags" (Decoder.map Decoder.text)

def toJson (r : VolumeRequest) : Json := .record [("tags", some (.ofStrings r.tags))]

end VolumeRequest

end MachineProvider.Cloud
