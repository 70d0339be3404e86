import MachineProvider.Decimal.Shortest
/-! JSON numbers: integers stay exact within 64 bits, everything else is a double. -/
namespace MachineProvider.Json

inductive Number where
  | integer (value : Int)
  | double (value : Double)
deriving DecidableEq, Inhabited

namespace Number

/-- Whether an integer is kept exactly. -/
def fits (n : Int) : Bool := -0x8000000000000000 ≤ n && n < 0x10000000000000000

/-- An integer never equals a double; both zeros of the doubles are equal. -/
def same : Number → Number → Bool
  | .integer a, .integer b => a == b
  | .double a, .double b => a.same b
  | _, _ => false

def text : Number → String
  | .integer n => toString n
  | .double d => d.jsonText

end Number

end MachineProvider.Json
