import MachineProvider.Cloud.Error
import MachineProvider.Cloud.Request
/-! The calls a provider answers, and the type of each answer. -/
namespace MachineProvider.Cloud

inductive Call where
  | createServer (request : ServerRequest)
  | getServer (uuid : String)
  | listServers (filter : Option TagFilter)
  | deleteServer (uuid : String)
  | createGroup (request : GroupRequest)
  | listGroups (filter : Option TagFilter)
  | updateVolume (uuid : String) (request : VolumeRequest)
deriving DecidableEq

namespace Call

/-- What a successful call returns. -/
def Result : Call → Type
  | createServer _ => Server
  | getServer _ => Server
  | listServers _ => List Server
  | deleteServer _ => Unit
  | createGroup _ => ServerGroup
  | listGroups _ => List ServerGroup
  | updateVolume _ _ => Unit

end Call

/-- The kinds of calls. -/
inductive Operation where
  | createServer
  | getServer
  | listServers
  | deleteServer
  | createGroup
  | listGroups
  | updateVolume
deriving DecidableEq

def Call.operation : Call → Operation
  | createServer _ => .createServer
  | getServer _ => .getServer
  | listServers _ => .listServers
  | deleteServer _ => .deleteServer
  | createGroup _ => .createGroup
  | listGroups _ => .listGroups
  | updateVolume _ _ => .updateVolume

end MachineProvider.Cloud
