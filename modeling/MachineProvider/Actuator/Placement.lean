import MachineProvider.Program
/-!
Server groups that keep the machines of one key apart. A group is looked up and, when none has
room, created; nothing is reserved in between.
-/
namespace MachineProvider

open Cloud (GroupRequest ServerGroup TagFilter)

def antiAffinityTag : String := "machine-api-provider-cloudscale_appuio_io_antiAffinityKey"

/-- How many servers a group takes. -/
def maxGroupMembers : Nat := 4

def groupRequest (zone key : String) : GroupRequest where
  name := key
  type := "anti-affinity"
  zone := zone
  tags := .ofList [(antiAffinityTag, key)]

def hasRoom (zone : String) (g : ServerGroup) : Bool :=
  g.zone.slug == zone && g.servers.length < maxGroupMembers

/-- A group for the key in the zone with room for one more server. -/
def allocateGroup (zone key : String) : Attempt String := do
  let groups : List ServerGroup ← Attempt.cloud (.listGroups (some ⟨antiAffinityTag, key⟩))
  match groups.find? (hasRoom zone) with
  | some g => return g.uuid
  | none => do
    let g : ServerGroup ← Attempt.cloud (.createGroup (groupRequest zone key))
    return g.uuid

end MachineProvider
