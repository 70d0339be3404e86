import MachineProvider.Decimal.Double
/-!
The double nearest to a fraction, and of two equally near ones the even; the remainder of a
division, which is always exact.
-/
namespace MachineProvider.Double

def zero : Double := ⟨0⟩

def infinity : Double := ⟨0x7ff0000000000000⟩

def notANumber : Double := ⟨0x7ff8000000000000⟩

/-- The quotient rounded to an integer, halves to the even one. -/
def halfEven (num den : Nat) : Nat :=
  let q := num / den
  let r := num % den
  if 2 * r < den then q else if den < 2 * r then q + 1 else q + q % 2

/-- One past the greatest significand of fifty-two bits. -/
def implicitBit : Nat := 0x10000000000000

/-- The exponent at which a fraction has fifty-three bits, or the least exponent there is. -/
def unitOf (num den : Nat) : Int :=
  let guess : Int := (Nat.log2 num : Int) - Nat.log2 den - 53
  let isWide := 2 * implicitBit * den * Nat.pow 2 guess.toNat ≤ num * Nat.pow 2 (-guess).toNat
  max (if isWide then guess + 1 else guess) (-1074)

/-- The bits of a significand and its exponent; one of fifty-four bits carries into the exponent. -/
def bitsOf (m : Nat) (q : Int) : Nat :=
  if m < implicitBit then m else (q + 1075).toNat * implicitBit + (m - implicitBit)

/-- The double nearest to `num / den`; infinite past the largest. -/
def nearest (num den : Nat) : Double :=
  if num = 0 then zero
  else
    let q := unitOf num den
    let bits := bitsOf (halfEven (num * Nat.pow 2 (-q).toNat) (den * Nat.pow 2 q.toNat)) q
    if bits < infinity.bits.toNat then ⟨UInt64.ofNat bits⟩ else infinity

/-- The distance from one to the next double. -/
def spacingAtOne : Double := nearest 1 implicitBit

def ofNat (n : Nat) : Double := nearest n 1

def ofInt (n : Int) : Double := if n < 0 then (ofNat n.natAbs).negate else ofNat n.natAbs

/-- The double nearest to `digits * 10 ^ exponent`. -/
def ofDecimal (digits : Nat) (exponent : Int) : Double :=
  let places := (Nat.toDigits 10 digits).length + exponent
  if digits = 0 ∨ places < -330 then zero
  else if 310 < places then infinity
  else nearest (digits * Nat.pow 10 exponent.toNat) (Nat.pow 10 (-exponent).toNat)

/-- A finite magnitude as a fraction. -/
def numerator (d : Double) : Nat := d.significand * Nat.pow 2 d.scale.toNat

def denominator (d : Double) : Nat := Nat.pow 2 (-d.scale).toNat

/-- The product of two finite magnitudes, rounded. -/
def times (a b : Double) : Double :=
  nearest (a.numerator * b.numerator) (a.denominator * b.denominator)

/-- The quotient of two finite magnitudes, rounded. -/
def dividedBy (a b : Double) : Double :=
  nearest (a.numerator * b.denominator) (a.denominator * b.numerator)

/-- What is left of the first after as many of the second as fit; it has the sign of the first. -/
def remainder (a b : Double) : Double :=
  if !a.isFinite || b.isNaN || b.isZero then notANumber
  else if !b.isFinite then a
  else
    let q := min a.scale b.scale
    let whole (d : Double) : Nat := d.significand * Nat.pow 2 (d.scale - q).toNat
    let rest := whole a % whole b
    let magnitude := nearest (rest * Nat.pow 2 q.toNat) (Nat.pow 2 (-q).toNat)
    if a.isNegative then magnitude.negate else magnitude

end MachineProvider.Double
