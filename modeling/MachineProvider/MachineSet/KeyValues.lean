import MachineProvider.StringMap
/-! Comma-separated lists of `key=value` pairs. -/
namespace MachineProvider.KeyValues

/-- A pair with exactly one equals sign. -/
def pair? (entry : List Char) : Option (String × String) :=
  match entry.splitOn '=' with
  | [k, v] => some (String.ofList k, String.ofList v)
  | _ => none

/-- The pairs of a list; entries that are no pair are left out. -/
def pairs (list : String) : List (String × String) :=
  (list.toList.splitOn ',').filterMap pair?

def parse (list : String) : StringMap String := .ofList (pairs list)

def text (m : StringMap String) : String :=
  String.intercalate "," (m.toList.map fun (k, v) => s!"{k}={v}")

/-- All lists as one in key order; later lists win. -/
def merge (lists : List String) : String := text (.ofList (lists.flatMap pairs))

end MachineProvider.KeyValues
