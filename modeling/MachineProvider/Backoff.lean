import MachineProvider.Decimal.Double
/-!
Retry schedules: each delay is the one before it times a factor, up to a cap. Delays count
nanoseconds; a product is rounded to the nearest one, ties to even.
-/
namespace MachineProvider

/-- A duration in nanoseconds. -/
abbrev Nanoseconds := Nat

structure Backoff where
  current : Nanoseconds
  factor : Double
  jitter : Double
  cap : Nanoseconds
  steps : Nat
deriving DecidableEq, Inhabited

namespace Backoff

/-- From one second, doubling up to five minutes, ten attempts, a tenth of jitter. -/
def standard : Backoff where
  current := 1000000000
  factor := .ofFloat 2
  jitter := .ofFloat 0.1
  cap := 300000000000
  steps := 10

/-- The seconds of a duration. -/
def seconds (d : Nanoseconds) : Float :=
  (d / 1000000000).toUInt64.toFloat + (d % 1000000000).toUInt64.toFloat / 1e9

/-- Rounds a quotient to the nearest integer, ties to even. -/
def roundDiv (a b : Nat) : Nat :=
  let q := a / b
  let r := a % b
  if b < 2 * r ∨ (2 * r = b ∧ q % 2 = 1) then q + 1 else q

/-- The longest duration: whole seconds of 64 bits. -/
def maxDuration : Nat := 0x10000000000000000 * 1000000000

/-- The nanoseconds of a number of seconds; none when it is negative or too large. -/
def ofSeconds? (s : Float) : Option Nanoseconds :=
  let d := Double.ofFloat s
  if s < 0 || !d.isFinite then none
  else
    let n := roundDiv (d.significand * Nat.pow 2 d.scale.toNat * 1000000000)
      (Nat.pow 2 (-d.scale).toNat)
    if n < maxDuration then some n else none

def scale? (d : Nanoseconds) (factor : Float) : Option Nanoseconds :=
  ofSeconds? (factor * seconds d)

/-- The next delay without jitter, and the schedule after it. -/
def next? (b : Backoff) : Option (Nanoseconds × Backoff) :=
  (scale? b.current b.factor.toFloat).map fun grown =>
    (min b.current b.cap, { b with current := min grown b.cap })

/-- A delay with a part of it more or less, up to the cap. -/
def jittered? (b : Backoff) (delay : Nanoseconds) (spread : Double) : Option Nanoseconds :=
  (scale? delay (1 + spread.toFloat)).map (min · b.cap)

/-- The first delays of a schedule without jitter. -/
def delays? (b : Backoff) : Nat → Option (List Nanoseconds)
  | 0 => some []
  | n + 1 => do
    let (d, b) ← b.next?
    let ds ← delays? b n
    return d :: ds

end Backoff

end MachineProvider
