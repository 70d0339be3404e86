/-! Health probes: whether the process lives, and whether it is ready to work. -/
namespace MachineProvider.Probe

structure Reply where
  status : Nat
  body : String
deriving DecidableEq

inductive Route where
  | health
  | readiness
deriving DecidableEq

/-- The route of a request target; what follows a question mark does not count. -/
def route? (target : String) : Option Route :=
  let path := String.ofList (target.toList.takeWhile (· != '?'))
  if path = "/healthz" then some .health
  else if path = "/readyz" then some .readiness
  else none

def answer (ready : Bool) : Route → Reply
  | .health => ⟨200, "ok"⟩
  | .readiness => if ready then ⟨200, "ok"⟩ else ⟨503, "not ready"⟩

/-- Routes are read only, with or without the body. -/
def handle (ready : Bool) (method target : String) : Reply :=
  match route? target with
  | none => ⟨404, ""⟩
  | some route =>
    if method = "GET" then answer ready route
    else if method = "HEAD" then { answer ready route with body := "" }
    else ⟨405, ""⟩

end MachineProvider.Probe
