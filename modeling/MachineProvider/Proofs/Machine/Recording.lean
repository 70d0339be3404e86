import MachineProvider.Proofs.Machine.Stored
import MachineProvider.Simulation.World

/-! Recording a server on the document a machine is stored in. -/
namespace MachineProvider

open Simulation (SentPatch World)

namespace Simulation.World

variable {w : World} {space name : String} {patch : Json}

theorem run_patchMachine (h : w.broken.contains "patch_machine" = false) {α : Type}
    (f : Unit → Attempt α) :
    w.run (Attempt.control (.patchMachine space name patch) >>= f) =
      (w.send ⟨.machine, space, name, patch⟩).run (f ()) := by
  have hanswer : World.answer (.control (.patchMachine space name patch)) w =
      (.ok (), w.send ⟨.machine, space, name, patch⟩) := by
    change w.answerControl (.patchMachine space name patch) = _
    unfold answerControl
    exact if_neg (by simpa [requestName] using h)
  change Program.run World.answer (.call (.control (.patchMachine space name patch)) _) w = _
  rw [Program.run, hanswer]
  rfl

/-- A status patch is sent if there is one. -/
theorem run_patchMachineStatus (h : w.broken.contains "patch_machine_status" = false)
    (status : Option Json) :
    w.run (match status with
      | some patch => Attempt.control (.patchMachineStatus space name patch)
      | none => pure () : Attempt Unit) =
      (.ok (), { w with
        patches := w.patches ++ status.toList.map (SentPatch.mk .machineStatus space name) }) := by
  cases status with
  | none => simp [World.run, Program.run, pure, ExceptT.pure, ExceptT.mk, ExceptT.run]
  | some patch =>
    change w.answerControl (.patchMachineStatus space name patch) = _
    unfold answerControl
    exact if_neg (by simpa [requestName] using h)

end Simulation.World

/-- The patches that record a server, in the order they are sent, turn the document the machine was
read from into one that holds the machine with that server on it. -/
theorem recordServer_exact (ctx : MachineContext) (server : Cloud.Server) {doc : Json}
    (h : ctx.machine.StoredIn doc) (w : World) (hmain : w.broken.contains "patch_machine" = false)
    (hstatus : w.broken.contains "patch_machine_status" = false) :
    ∃ main status : Option Json,
      w.run (ctx.recordServer server) = (.ok (), { w with patches := w.patches ++
        (main.toList.map (SentPatch.mk .machine ctx.space ctx.identity.name) ++
          status.toList.map (SentPatch.mk .machineStatus ctx.space ctx.identity.name)) }) ∧
      (ctx.machine.withServer server).StoredIn ((doc.mergeIfAny main).mergeIfAny status) := by
  have hstored := h.withServer server
  generalize hp : ctx.machine.patches (ctx.machine.withServer server) = patches at hstored
  obtain ⟨main, status⟩ := patches
  refine ⟨main, status, ?_, hstored⟩
  unfold MachineContext.recordServer
  rw [hp]
  cases main with
  | none => exact World.run_patchMachineStatus hstatus status
  | some patch =>
    have hstatus' : (w.send ⟨.machine, ctx.space, ctx.identity.name, patch⟩).broken.contains
        "patch_machine_status" = false := hstatus
    refine (World.run_patchMachine hmain _).trans ?_
    refine (World.run_patchMachineStatus hstatus' status).trans ?_
    simp [World.send]

/-- A document with an unknown null, a null in its payload and a null status. -/
def nullDocument : Json :=
  .object [("metadata", .object [("name", .string "m"), ("note", .null)]),
    ("spec", .object [("providerSpec", .object [("value", .object [("zone", .null)])])]),
    ("status", .null)]

def nullMachine : Machine where
  metadata := { (default : Kubernetes.Metadata) with name := some "m" }
  spec := ⟨none, some (.object [("zone", .null)])⟩
  status := none

theorem nullMachine_storedIn : nullMachine.StoredIn nullDocument where
  canonical :=
    ⟨by decide, ⟨by decide, trivial, trivial, trivial⟩,
      ⟨by decide, ⟨by decide, ⟨by decide, trivial, trivial⟩, trivial⟩, trivial⟩, trivial, trivial⟩
  object := ⟨_, rfl⟩
  spec := ⟨_, rfl⟩
  status v h := by
    left
    simpa [nullDocument, Json.get?, eq_comm] using h
  decoded := by rfl

theorem recordServer_nullDocument :
    ∃ main status : Option Json,
      (nullMachine.withServer default).StoredIn
        ((nullDocument.mergeIfAny main).mergeIfAny status) := by
  obtain ⟨main, status, -, h⟩ := recordServer_exact
    { (default : MachineContext) with machine := nullMachine } default nullMachine_storedIn default
    rfl rfl
  exact ⟨main, status, h⟩

end MachineProvider
