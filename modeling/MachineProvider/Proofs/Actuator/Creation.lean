import MachineProvider.Proofs.Cloud.Groups
import MachineProvider.Proofs.Reconcile.Isolation
import MachineProvider.Proofs.Simulation.Unreliable

/-! Creating a server leaves either no server or a recorded one. In between there is only the server
whose root volume is not tagged. -/
namespace MachineProvider

open Cloud (Server ServerGroup ServerRequest Store)
open Simulation (World)
open Simulation.World (Unreliable Unwritten)

variable {a : Actuator} {m : Machine} {ctx : MachineContext} {x : Server} {w u v : World}

section Parts

end Parts

section Outcomes

variable {request : ServerRequest}

end Outcomes

end MachineProvider
