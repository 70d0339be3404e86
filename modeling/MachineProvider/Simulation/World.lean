import MachineProvider.Cloud.Store
import MachineProvider.Kubernetes.LabelSelector
import MachineProvider.Watch
/-!
A world for programs to run in: a provider in memory, secrets, the patches sent so far and a clock.
Whoever draws a random number gets zero.
-/
namespace MachineProvider.Simulation

open Cloud (Store)
open Kubernetes (Secret)

/-- What a patch changes. -/
inductive Target where
  | machine
  | machineStatus
  | machineSet
deriving DecidableEq

/-- A patch that reached the control plane. -/
structure SentPatch where
  target : Target
  space : String
  name : String
  patch : Json

structure World where
  store : Store
  secrets : List Secret
  patches : List SentPatch
  /-- Control-plane requests that fail, by name. -/
  broken : List String
  /-- Tokens that clients were asked for. -/
  tokens : List String
  /-- Whether an empty token is refused. -/
  strictTokens : Bool
  clock : Nanoseconds
deriving Inhabited

namespace World

def requestName : ControlCall → String
  | .getSecret _ _ => "get_secret"
  | .listSecrets _ _ => "list_secrets"
  | .patchMachine _ _ _ => "patch_machine"
  | .patchMachineStatus _ _ _ => "patch_machine_status"
  | .patchMachineSet _ _ _ => "patch_machine_set"

def findSecret (w : World) (space name : String) : Option Secret :=
  w.secrets.find? fun s => s.metadata.namespace_ == some space && s.metadata.name == some name

def matchingSecrets (w : World) (space selector : String) : List Secret :=
  w.secrets.filter fun s =>
    s.metadata.namespace_ == some space &&
      Kubernetes.selects selector (s.metadata.labels.getD .empty)

def send (w : World) (p : SentPatch) : World := { w with patches := w.patches ++ [p] }

def answerControl (w : World) (c : ControlCall) : Except Error c.Result × World :=
  if w.broken.contains (requestName c) then
    (.error (.watch s!"injected {requestName c} failure"), w)
  else
    match c with
    | .getSecret space name => (.ok (w.findSecret space name), w)
    | .listSecrets space selector => (.ok (w.matchingSecrets space selector), w)
    | .patchMachine space name patch => (.ok (), w.send ⟨.machine, space, name, patch⟩)
    | .patchMachineStatus space name patch => (.ok (), w.send ⟨.machineStatus, space, name, patch⟩)
    | .patchMachineSet space name patch => (.ok (), w.send ⟨.machineSet, space, name, patch⟩)

def answerClient (w : World) (token : String) : Except Cloud.Error Unit × World :=
  if w.strictTokens && token.isEmpty then (.error (.authentication "no API token configured"), w)
  else (.ok (), { w with tokens := w.tokens ++ [token] })

def answer (c : Call) (w : World) : c.Answer × World :=
  match c with
  | .client token => w.answerClient token
  | .cloud c => let (r, store) := w.store.answer c; (r, { w with store := store })
  | .control c => w.answerControl c
  | .sleep d => ((), { w with clock := w.clock + d })
  | .draw width => (if width.isFinite then some ⟨0⟩ else none, w)

/-- Runs an attempt to its end. -/
def run {α : Type} (w : World) (attempt : Attempt α) : Except Error α × World :=
  Program.run answer (ExceptT.run attempt) w

/-- A pass of an attempt from a point in time on, cut short at the deadline. -/
def timed {α : Type} (deadline : Nanoseconds) (attempt : Attempt α) (start : Nanoseconds)
    (w : World) : Option (Except Error α × Nanoseconds) × World :=
  let (result, w) :=
    (ExceptT.run attempt).runWhile answer (·.clock < deadline) { w with clock := start }
  (result.map fun r => (r, w.clock), w)

/-- Watches a machine that never changes for some seconds. -/
def watch (w : World) (attempt : Attempt Action) (seconds : Nat) : World :=
  Watch.watch (timed (w.clock + seconds * Watch.second) attempt) seconds w.clock w

def runProgram {α : Type} (w : World) (p : Program α) : α × World := p.run answer w

end World

end MachineProvider.Simulation
