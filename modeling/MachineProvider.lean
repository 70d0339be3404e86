import MachineProvider.MachineSet.Reconcile
import MachineProvider.Main
import MachineProvider.Probe
import MachineProvider.Simulation.ControlPlane
import MachineProvider.Simulation.World
import MachineProvider.Proofs.Entries
import MachineProvider.Proofs.Json.Canonical
import MachineProvider.Proofs.Json.Patch
import MachineProvider.Proofs.Json.Reading
import MachineProvider.Proofs.Machine.Decoding
import MachineProvider.Proofs.Machine.Stored
import MachineProvider.Proofs.Program.Fleet
import MachineProvider.Proofs.Actuator.Calls
import MachineProvider.Proofs.Cloud.Bearers
import MachineProvider.Proofs.Reconcile.Outline
import MachineProvider.Proofs.Reconcile.Cluster
import MachineProvider.Proofs.Reconcile.OneServer
import MachineProvider.Proofs.Reconcile.FinalizerGuard
import MachineProvider.Proofs.Machine.Recording
import MachineProvider.Proofs.Simulation.Runs
import MachineProvider.Proofs.Reconcile.Recognition
import MachineProvider.Proofs.Program.Endings
import MachineProvider.Proofs.Program.Watched
import MachineProvider.Proofs.Cloud.Effects
import MachineProvider.Proofs.Cloud.Identifiers
import MachineProvider.Proofs.Cloud.Groups
import MachineProvider.Proofs.Reconcile.Endings
import MachineProvider.Proofs.Reconcile.Worlds
import MachineProvider.Proofs.Reconcile.Isolation
import MachineProvider.Proofs.Machine.Shown
import MachineProvider.Proofs.Simulation.Healed
import MachineProvider.Proofs.Simulation.Alike
import MachineProvider.Proofs.Simulation.UserData
import MachineProvider.Proofs.Reconcile.Convergence
import MachineProvider.Proofs.Reconcile.Recovery
import MachineProvider.Proofs.Placement.Allocation
import MachineProvider.Proofs.Placement.Operations
import MachineProvider.Proofs.Placement.Cap
import MachineProvider.Proofs.Json.Paths
import MachineProvider.Proofs.Reconcile.Coexistence
import MachineProvider.Proofs.Payload.RoundTrip
import MachineProvider.Proofs.Payload.Markers
import MachineProvider.Proofs.Jsonnet.PassThrough
import MachineProvider.Proofs.Cloud.Membership
import MachineProvider.Proofs.MachineSet.Settling
import MachineProvider.Proofs.Reconcile.ForeignFinalizers
import MachineProvider.Proofs.Machine.Reencoding
import MachineProvider.Proofs.MachineSet.ForeignAnnotations
import MachineProvider.Proofs.Json.Difference
import MachineProvider.Proofs.Reconcile.Ambiguity
import MachineProvider.Proofs.Simulation.Unreliable
import MachineProvider.Proofs.Actuator.Creation
import MachineProvider.Proofs.Text.Splitting
import MachineProvider.Proofs.MachineSet.Flavors
import MachineProvider.Proofs.MachineSet.Merging
import MachineProvider.Proofs.Placement.FirstFit
import MachineProvider.Proofs.Actuator.RootVolume
import MachineProvider.Proofs.Cloud.TagQuery
import MachineProvider.Proofs.Kubernetes.SelectorText
import MachineProvider.Proofs.Actuator.Addresses
import MachineProvider.Proofs.Actuator.VacantPayloads
import MachineProvider.Proofs.Actuator.SelectedSecrets
