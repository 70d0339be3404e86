/-! Flavor slugs such as `flex-16-4`: a type, the memory in GB and the number of virtual CPUs. -/
namespace MachineProvider

structure Flavor where
  type : String
  cpu : Nat
  memoryGb : Nat
deriving DecidableEq, Inhabited

namespace Flavor

def isWord (cs : List Char) : Bool :=
  !cs.isEmpty && cs.all fun c => c.isAlphanum || c == '_'

/-- The value of a text of digits, leading zeros allowed. -/
def numeral? (cs : List Char) : Option Nat :=
  if !cs.isEmpty && cs.all Char.isDigit then some (cs.foldl (fun n c => n * 10 + (c.toNat - 48)) 0)
  else none

def maxCpu : Nat := 0x100000000

def maxMemoryGb : Nat := 0x10000000000000000

def parse? (text : String) : Option Flavor :=
  match text.toList.splitOn '-' with
  | [type, memory, cpu] =>
    if isWord type then
      match numeral? memory, numeral? cpu with
      | some m, some c =>
        if m < maxMemoryGb ∧ c < maxCpu then some ⟨String.ofList type, c, m⟩ else none
      | _, _ => none
    else none
  | _ => none

/-- The memory in MB, when it is a 64-bit number. -/
def memoryMb? (f : Flavor) : Option Nat :=
  if f.memoryGb * 1024 < 0x10000000000000000 then some (f.memoryGb * 1024) else none

end Flavor

end MachineProvider
