import MachineProvider.Cloud.Tags
/-!
Servers and server groups as the provider reports them. Every field has a default, so a partial
report still decodes.
-/
namespace MachineProvider.Cloud

open Json (Decoder Fields)

/-- A text field that may be left out. -/
def textField (name : String) : Fields String := Fields.optional name Decoder.text ""

structure ZoneStub where
  slug : String
deriving Inhabited, DecidableEq

namespace ZoneStub

def decode : Decoder ZoneStub := Fields.record "ZoneStub" (ZoneStub.mk <$> textField "slug")

def toJson (z : ZoneStub) : Json := .record [("slug", some (.string z.slug))]

end ZoneStub

structure FlavorStub where
  slug : String
  name : String
  vcpuCount : Nat
  memoryGb : Nat
deriving Inhabited, DecidableEq

namespace FlavorStub

def decode : Decoder FlavorStub :=
  Fields.record "FlavorStub" <|
    FlavorStub.mk
      <$> textField "slug"
      <*> textField "name"
      <*> Fields.optional "vcpu_count" Decoder.u32 0
      <*> Fields.optional "memory_gb" Decoder.u32 0

def toJson (f : FlavorStub) : Json :=
  .record [("slug", some (.string f.slug)), ("name", some (.string f.name)),
    ("vcpu_count", some (.nat f.vcpuCount)), ("memory_gb", some (.nat f.memoryGb))]

end FlavorStub

structure ImageStub where
  slug : String
  name : String
deriving Inhabited, DecidableEq

namespace ImageStub

def decode : Decoder ImageStub :=
  Fields.record "ImageStub" (ImageStub.mk <$> textField "slug" <*> textField "name")

def toJson (i : ImageStub) : Json :=
  .record [("slug", some (.string i.slug)), ("name", some (.string i.name))]

end ImageStub

/-- A volume of a server; the first one is the root volume. -/
structure VolumeStub where
  uuid : String
  name : String
  type : String
  devicePath : String
  sizeGb : Nat
deriving Inhabited, DecidableEq

namespace VolumeStub

def decode : Decoder VolumeStub :=
  Fields.record "VolumeStub" <|
    VolumeStub.mk
      <$> textField "uuid"
      <*> textField "name"
      <*> textField "type"
      <*> textField "device_path"
      <*> Fields.optional "size_gb" Decoder.u32 0

def toJson (v : VolumeStub) : Json :=
  .record [("uuid", some (.string v.uuid)), ("name", some (.string v.name)),
    ("type", some (.string v.type)), ("device_path", some (.string v.devicePath)),
    ("size_gb", some (.nat v.sizeGb))]

end VolumeStub

structure NetworkStub where
  uuid : String
  name : String
deriving Inhabited, DecidableEq

namespace NetworkStub

def decode : Decoder NetworkStub :=
  Fields.record "NetworkStub" (NetworkStub.mk <$> textField "uuid" <*> textField "name")

def toJson (n : NetworkStub) : Json :=
  .record [("uuid", some (.string n.uuid)), ("name", some (.string n.name))]

end NetworkStub

structure SubnetStub where
  uuid : String
  cidr : String
deriving Inhabited, DecidableEq

namespace SubnetStub

def decode : Decoder SubnetStub :=
  Fields.record "SubnetStub" (SubnetStub.mk <$> textField "uuid" <*> textField "cidr")

def toJson (s : SubnetStub) : Json :=
  .record [("uuid", some (.string s.uuid)), ("cidr", some (.string s.cidr))]

end SubnetStub

/-- An address on an interface. -/
structure Address where
  version : Nat
  address : String
  prefixLength : Nat
  gateway : Option String
  reversePtr : Option String
  subnet : SubnetStub
deriving Inhabited, DecidableEq

/-- A document that is written as null when absent. -/
def orNull (v : Option Json) : Option Json := some (v.getD .null)

namespace Address

def decode : Decoder Address :=
  Fields.record "Address" <|
    Address.mk
      <$> Fields.optional "version" Decoder.u8 0
      <*> textField "address"
      <*> Fields.optional "prefix_length" Decoder.u8 0
      <*> Fields.nullable "gateway" Decoder.text
      <*> Fields.nullable "reverse_ptr" Decoder.text
      <*> Fields.optional "subnet" SubnetStub.decode default

def toJson (a : Address) : Json :=
  .record [("version", some (.nat a.version)), ("address", some (.string a.address)),
    ("prefix_length", some (.nat a.prefixLength)), ("gateway", orNull (a.gateway.map .string)),
    ("reverse_ptr", orNull (a.reversePtr.map .string)), ("subnet", some a.subnet.toJson)]

end Address

/-- An interface, public or on a private network. -/
structure Interface where
  type : String
  network : NetworkStub
  addresses : List Address
deriving Inhabited, DecidableEq

namespace Interface

def decode : Decoder Interface :=
  Fields.record "Interface" <|
    Interface.mk
      <$> textField "type"
      <*> Fields.optional "network" NetworkStub.decode default
      <*> Fields.optional "addresses" (Decoder.list Address.decode) []

def toJson (i : Interface) : Json :=
  .record [("type", some (.string i.type)), ("network", some i.network.toJson),
    ("addresses", some (.array (i.addresses.map Address.toJson)))]

end Interface

/-- A group a server belongs to. -/
structure GroupStub where
  uuid : String
  name : String
  href : String
deriving Inhabited, DecidableEq

namespace GroupStub

def decode : Decoder GroupStub :=
  Fields.record "ServerGroupStub" <|
    GroupStub.mk <$> textField "uuid" <*> textField "name" <*> textField "href"

def toJson (g : GroupStub) : Json :=
  .record [("uuid", some (.string g.uuid)), ("name", some (.string g.name)),
    ("href", some (.string g.href))]

end GroupStub

structure Server where
  href : String
  uuid : String
  name : String
  status : String
  zone : ZoneStub
  flavor : FlavorStub
  image : ImageStub
  volumes : List VolumeStub
  interfaces : List Interface
  groups : List GroupStub
  tags : Tags
  createdAt : Option String
deriving Inhabited, DecidableEq

namespace Server

def decode : Decoder Server :=
  Fields.record "Server" <|
    Server.mk
      <$> textField "href"
      <*> textField "uuid"
      <*> textField "name"
      <*> textField "status"
      <*> Fields.optional "zone" ZoneStub.decode default
      <*> Fields.optional "flavor" FlavorStub.decode default
      <*> Fields.optional "image" ImageStub.decode default
      <*> Fields.optional "volumes" (Decoder.list VolumeStub.decode) []
      <*> Fields.optional "interfaces" (Decoder.list Interface.decode) []
      <*> Fields.optional "server_groups" (Decoder.list GroupStub.decode) []
      <*> Fields.optional "tags" (Decoder.map Decoder.text) .empty
      <*> Fields.nullable "created_at" Decoder.text

def toJson (s : Server) : Json :=
  .record [("href", some (.string s.href)), ("uuid", some (.string s.uuid)),
    ("name", some (.string s.name)), ("status", some (.string s.status)),
    ("zone", some s.zone.toJson), ("flavor", some s.flavor.toJson),
    ("image", some s.image.toJson),
    ("volumes", some (.array (s.volumes.map VolumeStub.toJson))),
    ("interfaces", some (.array (s.interfaces.map Interface.toJson))),
    ("server_groups", some (.array (s.groups.map GroupStub.toJson))),
    ("tags", some (.ofStrings s.tags)),
    ("created_at", orNull (s.createdAt.map .string))]

end Server

/-- A member of a group. -/
structure ServerStub where
  uuid : String
  href : String
deriving Inhabited, DecidableEq

namespace ServerStub

def decode : Decoder ServerStub :=
  Fields.record "ServerStub" (ServerStub.mk <$> textField "uuid" <*> textField "href")

def toJson (s : ServerStub) : Json :=
  .record [("uuid", some (.string s.uuid)), ("href", some (.string s.href))]

end ServerStub

structure ServerGroup where
  href : String
  uuid : String
  name : String
  type : String
  zone : ZoneStub
  servers : List ServerStub
  tags : Tags
deriving Inhabited, DecidableEq

namespace ServerGroup

def decode : Decoder ServerGroup :=
  Fields.record "ServerGroup" <|
    ServerGroup.mk
      <$> textField "href"
      <*> textField "uuid"
      <*> textField "name"
      <*> textField "type"
      <*> Fields.optional "zone" ZoneStub.decode default
      <*> Fields.optional "servers" (Decoder.list ServerStub.decode) []
      <*> Fields.optional "tags" (Decoder.map Decoder.text) .empty

def toJson (g : ServerGroup) : Json :=
  .record [("href", some (.string g.href)), ("uuid", some (.string g.uuid)),
    ("name", some (.string g.name)), ("type", some (.string g.type)),
    ("zone", some g.zone.toJson),
    ("servers", some (.array (g.servers.map ServerStub.toJson))),
    ("tags", some (.ofStrings g.tags))]

end ServerGroup

end MachineProvider.Cloud
