import MachineProvider.Kubernetes.Exchange
import MachineProvider.Watch
/-! A control plane that answers every request with one reply and keeps what it was asked. -/
namespace MachineProvider.Simulation

structure ControlPlane where
  reply : Kubernetes.Reply
  /-- The requests so far, each with the time it arrived. -/
  requests : List (Nanoseconds × Kubernetes.Request)
  clock : Nanoseconds

namespace ControlPlane

def new (reply : Kubernetes.Reply) : ControlPlane := ⟨reply, [], 0⟩

def answerControl (p : ControlPlane) (c : ControlCall) : Except Error c.Result × ControlPlane :=
  match Kubernetes.request c with
  | .error e => (.error (.control e), p)
  | .ok request =>
    ((Kubernetes.readReply c p.reply).mapError .control,
      { p with requests := p.requests ++ [(p.clock, request)] })

/-- There is no provider here. -/
def answer (c : Call) (p : ControlPlane) : c.Answer × ControlPlane :=
  match c with
  | .client _ => (.error .http, p)
  | .cloud _ => (.error .http, p)
  | .control c => p.answerControl c
  | .sleep d => ((), { p with clock := p.clock + d })
  | .draw width => (if width.isFinite then some ⟨0⟩ else none, p)

def run {α : Type} (p : ControlPlane) (attempt : Attempt α) : Except Error α × ControlPlane :=
  Program.run answer (ExceptT.run attempt) p

/-- Watches an object that never changes for some seconds. -/
def watch (p : ControlPlane) (attempt : Attempt Action) (seconds : Nat) : ControlPlane :=
  let pass : Watch.Pass ControlPlane := fun start p =>
    let (outcome, p) := run { p with clock := start } attempt
    (some (outcome, p.clock), p)
  Watch.watch pass seconds p.clock p

end ControlPlane

end MachineProvider.Simulation
