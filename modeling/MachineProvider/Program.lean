import MachineProvider.Backoff
import MachineProvider.Cloud.Call
import MachineProvider.Error
import MachineProvider.Kubernetes.Secret
/-!
What the controller does to the world, as a tree of calls: each call is followed by a program for
every answer. Programs run against any world that answers calls, one call at a time.
-/
namespace MachineProvider

/-- The calls the control plane answers. -/
inductive ControlCall where
  | getSecret (space name : String)
  | listSecrets (space selector : String)
  | patchMachine (space name : String) (patch : Json)
  | patchMachineStatus (space name : String) (patch : Json)
  | patchMachineSet (space name : String) (patch : Json)

/-- What a successful call returns. -/
def ControlCall.Result : ControlCall → Type
  | getSecret _ _ => Option Kubernetes.Secret
  | listSecrets _ _ => List Kubernetes.Secret
  | patchMachine _ _ _ => Unit
  | patchMachineStatus _ _ _ => Unit
  | patchMachineSet _ _ _ => Unit

inductive Call where
  /-- Asks for a provider client that authenticates with a token. -/
  | client (token : String)
  | cloud (call : Cloud.Call)
  | control (call : ControlCall)
  | sleep (duration : Nanoseconds)
  /-- Asks for a random number at most so far from zero; there is none when that is no distance. -/
  | draw (width : Double)

def Call.Answer : Call → Type
  | client _ => Except Cloud.Error Unit
  | cloud c => Except Cloud.Error c.Result
  | control c => Except Error c.Result
  | sleep _ => Unit
  | draw _ => Option Double

inductive Program (α : Type) where
  | done (result : α)
  | call (c : Call) (next : c.Answer → Program α)

namespace Program

variable {α β : Type}

def bind : Program α → (α → Program β) → Program β
  | done a, f => f a
  | call c next, f => call c fun answer => (next answer).bind f

instance : Monad Program where
  pure := done
  bind := bind

/-- A call and nothing more. -/
def perform (c : Call) : Program c.Answer := call c done

/-- Answers every call of a program in a world that changes with each. -/
def run {World : Type} (answer : (c : Call) → World → c.Answer × World) :
    Program α → World → α × World
  | done a, w => (a, w)
  | call c next, w => let (r, w) := answer c w; (next r).run answer w

/-- Like `run`, but stops for good when the world no longer allows the next step. -/
def runWhile {World : Type} (answer : (c : Call) → World → c.Answer × World)
    (proceed : World → Bool) : Program α → World → Option α × World
  | done a, w => (some a, w)
  | call c next, w =>
    let (r, w) := answer c w
    if proceed w then (next r).runWhile answer proceed w else (none, w)

end Program

/-- A program that may fail. -/
abbrev Attempt (α : Type) := ExceptT Error Program α

namespace Attempt

variable {α : Type}

def ofExcept : Except Error α → Attempt α
  | .ok a => pure a
  | .error e => throw e

/-- Sends a call to the provider; its failure is the attempt's. -/
def cloud (c : Cloud.Call) : Attempt c.Result :=
  ExceptT.mk do
    let answer : Except Cloud.Error c.Result ← Program.perform (.cloud c)
    return answer.mapError .cloud

/-- Sends a request to the control plane; its failure is the attempt's. -/
def control (c : ControlCall) : Attempt c.Result := ExceptT.mk (Program.perform (.control c))

def client (token : String) : Attempt Unit :=
  ExceptT.mk do
    let answer : Except Cloud.Error Unit ← Program.perform (.client token)
    return answer.mapError .cloud

end Attempt

end MachineProvider
