/-! Double precision numbers, told apart by their bits. -/
namespace MachineProvider

/-- A binary64 number: one sign bit, eleven exponent bits, fifty-two fraction bits. -/
structure Double where
  bits : UInt64
deriving DecidableEq, Inhabited

namespace Double

def ofFloat (x : Float) : Double := ⟨x.toBits⟩

def toFloat (d : Double) : Float := Float.ofBits d.bits

def isNegative (d : Double) : Bool := d.bits >>> 63 == 1

/-- The exponent field, as stored. -/
def biased (d : Double) : Nat := ((d.bits >>> 52) &&& 0x7ff).toNat

def fraction (d : Double) : Nat := (d.bits &&& 0xfffffffffffff).toNat

def isFinite (d : Double) : Bool := d.biased < 2047

def isZero (d : Double) : Bool := d.biased == 0 && d.fraction == 0

def isNaN (d : Double) : Bool := d.biased == 2047 && d.fraction != 0

/-- The integer `m` of the magnitude `m * 2 ^ q` of a finite number. -/
def significand (d : Double) : Nat :=
  if d.biased = 0 then d.fraction else d.fraction + 0x10000000000000

/-- The exponent `q` of the magnitude `m * 2 ^ q` of a finite number. -/
def scale (d : Double) : Int := if d.biased = 0 then -1074 else (d.biased : Int) - 1075

/-- The same magnitude with the sign bit set. -/
def negate (d : Double) : Double := ⟨d.bits ^^^ 0x8000000000000000⟩

/-- Numerical equality: both zeros are the same number. -/
def same (a b : Double) : Bool := a == b || (a.isZero && b.isZero)

end Double

end MachineProvider
