import MachineProvider.Reconcile
/-!
Watching one object that never changes: the first pass comes after a short pause, and each later
one after the rest that the pass before asked for and the pause again.
-/
namespace MachineProvider.Watch

def second : Nanoseconds := 1000000000

/-- How long events are collected before a pass. -/
def debounce : Nanoseconds := 5 * second

/-- The rest after a pass; a failed one is tried again. -/
def restAfter : Except Error Action → Option Nanoseconds
  | .ok (.requeue s) => some (s * second)
  | .ok .awaitChange => none
  | .error _ => some (errorRequeue * second)

/-- A pass from a point in time on: its outcome and when it ended, unless time ran out before. -/
abbrev Pass (World : Type) :=
  Nanoseconds → World → Option (Except Error Action × Nanoseconds) × World

variable {World : Type}

/-- All passes that start before the deadline, the next one a pause from now. -/
def passes (pass : Pass World) (deadline : Nanoseconds) :
    (fuel : Nat) → (now : Nanoseconds) → World → World
  | 0, _, w => w
  | fuel + 1, now, w =>
    let start := now + debounce
    if deadline ≤ start then w
    else
      let (result, w) := pass start w
      match result with
      | none => w
      | some (outcome, finish) =>
        match restAfter outcome with
        | none => w
        | some rest => passes pass deadline fuel (finish + rest) w

/-- The passes of some seconds from now on; no two are less than a second apart. -/
def watch (pass : Pass World) (seconds : Nat) (now : Nanoseconds) (w : World) : World :=
  passes pass (now + seconds * second) (seconds + 1) now w

end MachineProvider.Watch
