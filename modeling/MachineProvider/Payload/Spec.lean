import MachineProvider.Kubernetes.LabelSelector
/-! What a machine's provider payload asks for. -/
namespace MachineProvider

open Json (Decoder Fields)
open Kubernetes (LabelSelector)

structure SecretReference where
  name : String
deriving Inhabited, DecidableEq

namespace SecretReference

def decode : Decoder SecretReference :=
  Fields.record "SecretReference" (SecretReference.mk <$> Fields.required "name" Decoder.text)

def toJson (r : SecretReference) : Json := .record [("name", some (.string r.name))]

end SecretReference

inductive InterfaceType where
  | publicNetwork
  | privateNetwork
deriving Inhabited, DecidableEq

namespace InterfaceType

/-- Both spellings are read; the capitalised one is written. -/
def names : List (String × InterfaceType) :=
  [("Public", .publicNetwork), ("public", .publicNetwork), ("Private", .privateNetwork),
    ("private", .privateNetwork)]

def decode : Decoder InterfaceType := Decoder.variant names

def text : InterfaceType → String
  | .publicNetwork => "Public"
  | .privateNetwork => "Private"

end InterfaceType

structure AddressSpec where
  address : String
  subnetUuid : String
deriving Inhabited, DecidableEq

namespace AddressSpec

def decode : Decoder AddressSpec :=
  Fields.record "AddressSpec" <|
    AddressSpec.mk
      <$> Fields.optional "address" Decoder.text ""
      <*> Fields.optional "subnetUUID" Decoder.text ""

def toJson (a : AddressSpec) : Json :=
  .record [("address", some (.string a.address)), ("subnetUUID", some (.string a.subnetUuid))]

end AddressSpec

/-- A network interface; no addresses at all asks for one by DHCP, an empty list for none. -/
structure InterfaceSpec where
  type : InterfaceType
  networkUuid : String
  addresses : Option (List AddressSpec)
deriving Inhabited, DecidableEq

namespace InterfaceSpec

def decode : Decoder InterfaceSpec :=
  Fields.record "InterfaceSpec" <|
    InterfaceSpec.mk
      <$> Fields.required "type" InterfaceType.decode
      <*> Fields.optional "networkUUID" Decoder.text ""
      <*> Fields.nullable "addresses" (Decoder.list AddressSpec.decode)

def toJson (i : InterfaceSpec) : Json :=
  .record [("type", some (.string i.type.text)),
    ("networkUUID", some (.string i.networkUuid)),
    ("addresses", i.addresses.map fun as => .array (as.map AddressSpec.toJson))]

end InterfaceSpec

/-- Text that is left out when empty. -/
def nonEmptyText (s : String) : Option Json := if s.isEmpty then none else some (.string s)

/-- A list that is left out when empty. -/
def nonEmptyList {α : Type} (toJson : α → Json) (as : List α) : Option Json :=
  if as.isEmpty then none else some (.array (as.map toJson))

/-- The wishes for one server. -/
structure ProviderSpec where
  userDataSecret : Option SecretReference
  userDataSecretSelector : Option LabelSelector
  tokenSecret : Option SecretReference
  baseDomain : String
  zone : String
  antiAffinityKey : String
  serverGroups : List String
  tags : StringMap String
  rootVolumeTags : Option (StringMap String)
  flavor : String
  image : String
  rootVolumeSizeGb : Nat
  sshKeys : List String
  useIpv6 : Option Bool
  interfaces : List InterfaceSpec
deriving Inhabited, DecidableEq

namespace ProviderSpec

def kind : String := "CloudscaleMachineProviderSpec"

def decode : Decoder ProviderSpec :=
  Fields.record kind <|
    ProviderSpec.mk
      <$> Fields.nullable "userDataSecret" SecretReference.decode
      <*> Fields.nullable "userDataSecretSelector" LabelSelector.decode
      <*> Fields.nullable "tokenSecret" SecretReference.decode
      <*> Fields.optional "baseDomain" Decoder.text ""
      <*> Fields.optional "zone" Decoder.text ""
      <*> Fields.optional "antiAffinityKey" Decoder.text ""
      <*> Fields.defaulted "serverGroups" (Decoder.list Decoder.text)
      <*> Fields.defaulted "tags" (Decoder.map Decoder.text)
      <*> Fields.nullable "rootVolumeTags" (Decoder.map Decoder.text)
      <*> Fields.optional "flavor" Decoder.text ""
      <*> Fields.optional "image" Decoder.text ""
      <*> Fields.optional "rootVolumeSizeGB" Decoder.u32 0
      <*> Fields.defaulted "sshKeys" (Decoder.list Decoder.text)
      <*> Fields.nullable "useIPV6" Decoder.flag
      <*> Fields.defaulted "interfaces" (Decoder.list InterfaceSpec.decode)

def members (s : ProviderSpec) : List (String × Option Json) :=
  [("userDataSecret", s.userDataSecret.map SecretReference.toJson),
    ("userDataSecretSelector", s.userDataSecretSelector.map LabelSelector.toJson),
    ("tokenSecret", s.tokenSecret.map SecretReference.toJson),
    ("baseDomain", nonEmptyText s.baseDomain),
    ("zone", some (.string s.zone)),
    ("antiAffinityKey", nonEmptyText s.antiAffinityKey),
    ("serverGroups", nonEmptyList .string s.serverGroups),
    ("tags", some (.ofStrings s.tags)),
    ("rootVolumeTags", s.rootVolumeTags.map .ofStrings),
    ("flavor", some (.string s.flavor)),
    ("image", some (.string s.image)),
    ("rootVolumeSizeGB", some (.nat s.rootVolumeSizeGb)),
    ("sshKeys", some (.array (s.sshKeys.map .string))),
    ("useIPV6", s.useIpv6.map .bool),
    ("interfaces", some (.array (s.interfaces.map InterfaceSpec.toJson)))]

end ProviderSpec

end MachineProvider
