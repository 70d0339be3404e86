/-! Why a provider call fails. -/
namespace MachineProvider.Cloud

inductive Error where
  | http
  | api (text : String)
  | authentication (text : String)
  | notFound (text : String)
deriving DecidableEq, Inhabited

namespace Error

def message : Error → String
  | http => "HTTP error"
  | api text => s!"cloudscale API error: {text}"
  | authentication text => s!"Authentication failed: {text}"
  | notFound text => s!"Not found: {text}"

def isNotFound : Error → Bool
  | notFound _ => true
  | _ => false

end Error

end MachineProvider.Cloud
