import MachineProvider.Json.Decode
import MachineProvider.Text.Percent
/-! Tags of cloud resources, and the equality filter that lists take. -/
namespace MachineProvider.Cloud

abbrev Tags := StringMap String

/-- Asks for resources that carry one tag with one value. -/
structure TagFilter where
  key : String
  value : String
deriving DecidableEq, Inhabited

namespace TagFilter

def holds (f : TagFilter) (tags : Tags) : Bool := tags.get? f.key == some f.value

def toJson (f : TagFilter) : Json :=
  .record [("key", some (.string f.key)), ("value", some (.string f.value))]

/-- The filter as a query: the tag's name and its value, both percent-encoded. -/
def query (f : TagFilter) : String :=
  Text.percentEncode ("tag:" ++ f.key) ++ "=" ++ Text.percentEncode f.value

end TagFilter

end MachineProvider.Cloud
