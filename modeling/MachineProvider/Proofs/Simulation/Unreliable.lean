import MachineProvider.Proofs.Reconcile.Worlds
import MachineProvider.Proofs.Simulation.Healed

/-! Runs in a world whose provider may fail at any call. -/
namespace MachineProvider.Simulation.World

open Cloud (Server Store)

variable {α : Type} {w u v : World} {c : Call} {ctx : MachineContext} {x : Server}

/-- The provider answers as it does in memory, or fails and does nothing, whatever failures are set
for it. Everything else is answered as in memory. -/
def Unreliable (w : World) : (c : Call) → c.Answer → World → Prop
  | .cloud c, r, u => ∃ store, w.store.Serves c r store ∧ u = { w with store := store }
  | c, r, u => w.Answers c r u

theorem Unreliable.store {r : c.Answer} (h : w.Unreliable c r u) : w.store.Answers c r u.store := by
  cases c with
  | cloud c =>
    obtain ⟨store, hserves, rfl⟩ := h
    exact hserves
  | _ => exact Answers.store h

/-- No patch was sent in between, and the same requests are set to fail. -/
structure Unwritten (w u : World) : Prop where
  patches : u.patches = w.patches
  broken : u.broken = w.broken

theorem Unwritten.trans (h : Unwritten w u) (h' : Unwritten u v) : Unwritten w v :=
  ⟨h'.patches.trans h.patches, h'.broken.trans h.broken⟩

end MachineProvider.Simulation.World
