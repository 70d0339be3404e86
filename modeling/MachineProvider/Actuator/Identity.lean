import MachineProvider.Program
/-!
Which server belongs to a machine. Two tags on the server join it to the machine's name and
cluster; only the name can be asked of the provider, the cluster is compared here.
-/
namespace MachineProvider

open Cloud (Server TagFilter Tags)

def machineNameTag : String := "machine-api-provider-cloudscale_appuio_io_name"

def clusterIdTag : String := "machine-api-provider-cloudscale_appuio_io_cluster_id"

structure Identity where
  name : String
  clusterId : String
deriving DecidableEq, Inhabited

namespace Identity

/-- The tags of a server created for this identity. -/
def tags (i : Identity) : Tags := .ofList [(machineNameTag, i.name), (clusterIdTag, i.clusterId)]

def lookupFilter (i : Identity) : TagFilter := ⟨machineNameTag, i.name⟩

/-- Whether tags carry this identity; an empty cluster belongs to nobody. -/
def owns (i : Identity) (tags : Tags) : Bool :=
  let clusterId := (tags.get? clusterIdTag).getD ""
  !clusterId.isEmpty && clusterId == i.clusterId && tags.get? machineNameTag == some i.name

/-- The only server of those that match. -/
def resolve (i : Identity) (candidates : List Server) : Except Error (Option Server) :=
  match candidates.filter fun s => i.owns s.tags with
  | [] => .ok none
  | [s] => .ok (some s)
  | matching => .error (.ambiguousIdentity i.name i.clusterId (matching.map (·.uuid)))

def locate (i : Identity) : Attempt (Option Server) := do
  let candidates ← Attempt.cloud (.listServers (some i.lookupFilter))
  Attempt.ofExcept (i.resolve candidates)

end Identity

end MachineProvider
