import MachineProvider.Decimal.Double
/-!
The shortest decimal that reads back as a given double. Of the decimals with the fewest digits
the nearest is taken, and of two equally near ones the even.
-/
namespace MachineProvider

/-- The number `digits * 10 ^ exponent`. -/
structure Decimal where
  digits : Nat
  exponent : Int
deriving DecidableEq, Inhabited

namespace Decimal

/-- The reals that round to a double, as numerators over one denominator. -/
structure Interval where
  low : Nat
  value : Nat
  high : Nat
  denominator : Nat
  closed : Bool

/-- The neighbours of a double are half a unit away, a quarter below a power of two. -/
def Interval.of (d : Double) : Interval :=
  let m := d.significand
  let q := d.scale
  let unit := Nat.pow 2 (q - 2).toNat
  let narrow := d.fraction = 0 ∧ 1 < d.biased
  { low := (4 * m - if narrow then 1 else 2) * unit
    value := 4 * m * unit
    high := (4 * m + 2) * unit
    denominator := Nat.pow 2 (2 - q).toNat
    closed := m % 2 = 0 }

/-- Multiplies by a power of ten; a negative one goes to the denominator. -/
def Interval.scaleBy (i : Interval) (k : Int) : Interval :=
  let f := Nat.pow 10 k.toNat
  { i with
    low := i.low * f, value := i.value * f, high := i.high * f
    denominator := i.denominator * Nat.pow 10 (-k).toNat }

def Interval.holds (i : Interval) (n : Nat) : Bool :=
  let x := n * i.denominator
  if i.closed then i.low ≤ x && x ≤ i.high else i.low < x && x < i.high

/-- The exponent of the leading digit. -/
def Interval.magnitude (i : Interval) : Int :=
  let reaches (k : Int) : Bool :=
    i.denominator * Nat.pow 10 k.toNat ≤ i.value * Nat.pow 10 (-k).toNat
  let bits := (Nat.log2 i.value : Int) - Nat.log2 i.denominator - 1
  let guess := Int.fdiv (bits * 30103) 100000
  let guess := if reaches (guess + 1) then guess + 1 else guess
  if reaches (guess + 1) then guess + 1 else guess

/-- The grid point nearest to the value among its two neighbours, if it reads back. -/
def Interval.pick (i : Interval) : Option Nat :=
  let below := i.value / i.denominator
  match i.holds below, i.holds (below + 1) with
  | true, true =>
    let down := i.value - below * i.denominator
    let up := (below + 1) * i.denominator - i.value
    if down < up || (down == up && below % 2 == 0) then some below else some (below + 1)
  | true, false => some below
  | false, true => some (below + 1)
  | false, false => none

/-- The shortest decimal for the magnitude of a finite double. -/
def shortest (d : Double) : Decimal :=
  if d.isZero then ⟨0, 0⟩
  else
    let i := Interval.of d
    let top := i.magnitude
    let found := (List.range 17).findSome? fun (n : Nat) =>
      let exponent := top - n
      (i.scaleBy (-exponent)).pick.map fun digits =>
        -- a carry out of the leading digit
        if digits % 10 = 0 then ⟨digits / 10, exponent + 1⟩ else ⟨digits, exponent⟩
    found.getD ⟨0, 0⟩

/-- The digits in ten's notation. -/
def digitText (n : Nat) : List Char := Nat.toDigits 10 n

/-- The exponent of the leading digit. -/
def leading (d : Decimal) : Int := d.exponent + (digitText d.digits).length - 1

def zeros (n : Nat) : List Char := List.replicate n '0'

/-- Digits before and after the point, with no digit after it for an integer. -/
def positional (d : Decimal) : List Char × List Char :=
  let text := digitText d.digits
  if 0 ≤ d.exponent then (text ++ zeros d.exponent.toNat, [])
  else
    let places := (-d.exponent).toNat
    let padded := zeros (places + 1 - text.length) ++ text
    padded.splitAt (padded.length - places)

/-- Positional notation at any size, without a point for an integer. -/
def plain (d : Decimal) : String :=
  match d.positional with
  | (whole, []) => String.ofList whole
  | (whole, rest) => String.ofList (whole ++ '.' :: rest)

/-- Positional notation with at least one digit after the point. -/
def pointed (d : Decimal) : String :=
  match d.positional with
  | (whole, []) => String.ofList (whole ++ ['.', '0'])
  | (whole, rest) => String.ofList (whole ++ '.' :: rest)

/-- One digit before the point and a signed exponent. -/
def scientific (d : Decimal) : String :=
  let text := digitText d.digits
  let fraction := match text.tail with
    | [] => []
    | rest => '.' :: rest
  let e := d.leading
  let sign := if e < 0 then '-' else '+'
  String.ofList (text.take 1 ++ fraction ++ 'e' :: sign :: digitText e.natAbs)

end Decimal

/-- Positional between 10^-5 and 10^16, with an exponent elsewhere; always marked as no integer. -/
def Double.jsonText (d : Double) : String :=
  let decimal := Decimal.shortest d
  let body :=
    if -5 ≤ decimal.leading ∧ decimal.leading ≤ 15 then decimal.pointed else decimal.scientific
  if d.isNegative then "-" ++ body else body

/-- Positional at any size; integers carry no point. -/
def Double.plainText (d : Double) : String :=
  if d.isNaN then "NaN"
  else
    let body := if d.isFinite then (Decimal.shortest d).plain else "inf"
    if d.isNegative then "-" ++ body else body

end MachineProvider
