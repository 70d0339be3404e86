import MachineProvider.Proofs.Program.Endings
import MachineProvider.Proofs.Reconcile.Cluster
import MachineProvider.Proofs.Simulation.Runs

/-! Runs carried over from one kind of world to another: from the world in memory to its provider,
and from either to a cluster that keeps one document. -/
namespace MachineProvider

open Cloud (Store)
open Simulation (SentPatch World)

variable {α : Type}

/-- Results can be compared by what they hold, unlike failures. -/
theorem eq_ok_of_toOption {ε : Type} {r : Except ε α} {b : α} (h : r.toOption = some b) :
    r = .ok b := by
  cases r with
  | error e => cases h
  | ok c => exact congrArg _ (Option.some.inj h)

/-- What a patch makes of the document of a machine. -/
def Simulation.SentPatch.applyTo (doc : Json) (p : SentPatch) : Json :=
  match p.target with
  | .machine | .machineStatus => doc.merge p.patch
  | .machineSet => doc

/-- The document after all patches, the first one first. -/
def Simulation.applied (sent : List SentPatch) (doc : Json) : Json :=
  sent.foldl SentPatch.applyTo doc

/-- What can happen at the provider can happen in a cluster whose document takes every patch. -/
theorem Attempt.CanEnd.cluster {x : Attempt α} {s t : Store} {r : Except Error α}
    (h : x.CanEnd Store.Answers s r t) (doc : Json) :
    ∃ l : Cluster, x.CanEnd Cluster.Answers ⟨doc, s⟩ r l ∧ l.store = t := by
  refine Program.CanEnd.simulate (R := fun s (k : Cluster) => k.store = s) ?_ rfl h
  intro s c r t k hk hr
  subst hk
  have hpatch : ∀ {patch : Json} {r : Except Error Unit}, (∀ e, r = .error e → e.OfControl) →
      ∃ l, Cluster.Patches patch k r l ∧ l.store = k.store := by
    intro patch r hr
    cases r with
    | ok _ => exact ⟨{ k with document := k.document.merge patch }, .inl ⟨rfl, rfl⟩, rfl⟩
    | error e => exact ⟨k, .inr ⟨⟨e, rfl, hr e rfl⟩, rfl⟩, rfl⟩
  cases c with
  | cloud c => exact ⟨⟨k.document, t⟩, ⟨hr, rfl⟩, rfl⟩
  | sleep d => exact ⟨k, rfl, hr.symm⟩
  | draw width => exact ⟨k, rfl, hr.symm⟩
  | client token => exact ⟨k, rfl, hr.symm⟩
  | control c =>
    obtain ⟨hhonest, rfl⟩ := hr
    cases c with
    | patchMachine space name patch => exact hpatch hhonest
    | patchMachineStatus space name patch => exact hpatch hhonest
    | _ => exact ⟨k, ⟨hhonest, rfl⟩, rfl⟩

namespace Simulation.World

variable {w : World}

/-- The run in memory is one that can happen at its provider. -/
theorem canEnd_store (w : World) (x : Attempt α) :
    x.CanEnd Store.Answers w.store (w.run x).1 (w.run x).2.store := by
  have hrun : (ExceptT.run x).CanEnd Answers w _ _ :=
    Program.canEnd_run (ExceptT.run x) w fun _ _ => rfl
  obtain ⟨t, ht, hstore⟩ := hrun.simulate (R := fun w s => w.store = s)
    (fun hw hr => ⟨_, hw ▸ hr.store, rfl⟩) rfl
  exact hstore ▸ ht

theorem applied_append (sent : List SentPatch) (p : SentPatch) (doc : Json) :
    applied (sent ++ [p]) doc = p.applyTo (applied sent doc) := by simp [applied]

/-- A cluster whose document took what was sent can answer like the world in memory. -/
theorem answers_cluster {u v : World} {c : Call} {r : c.Answer} {doc : Json} {sent : List SentPatch}
    (hsent : u.patches = w.patches ++ sent) (hr : u.Answers c r v) :
    ∃ l, Cluster.Answers ⟨applied sent doc, u.store⟩ c r l ∧
      ∃ sent, v.patches = w.patches ++ sent ∧ l = ⟨applied sent doc, v.store⟩ := by
  have hstore := Answers.store hr
  cases c with
  | cloud c =>
    obtain rfl : (answer (.cloud c) u).2 = v := congrArg Prod.snd hr
    exact ⟨⟨applied sent doc, (u.store.answer c).2⟩, ⟨hstore, rfl⟩, sent, hsent, rfl⟩
  | sleep d =>
    obtain rfl : (answer (.sleep d) u).2 = v := congrArg Prod.snd hr
    exact ⟨_, rfl, sent, hsent, rfl⟩
  | draw width =>
    obtain rfl : (answer (.draw width) u).2 = v := congrArg Prod.snd hr
    exact ⟨_, rfl, sent, hsent, rfl⟩
  | client token =>
    obtain rfl : (answer (.client token) u).2 = v := congrArg Prod.snd hr
    refine ⟨_, rfl, sent, ?_, by rw [show _ = u.store from hstore]⟩
    change (u.answerClient token).2.patches = _
    unfold answerClient
    split <;> exact hsent
  | control c =>
    have hanswer : u.answerControl c = (r, v) := hr
    unfold answerControl at hanswer
    split at hanswer
    · obtain ⟨rfl, rfl⟩ := Prod.mk.inj hanswer
      refine ⟨_, ?_, sent, hsent, rfl⟩
      cases c with
      | patchMachine _ _ _ | patchMachineStatus _ _ _ => exact .inr ⟨⟨_, rfl, trivial⟩, rfl⟩
      | _ => exact ⟨hstore.1, rfl⟩
    · have hsend : ∀ p, (u.send p).patches = w.patches ++ (sent ++ [p]) := by
        intro p
        simp [send, hsent]
      cases c with
      | patchMachine space name patch =>
        obtain ⟨rfl, rfl⟩ := Prod.mk.inj hanswer
        exact ⟨_, .inl ⟨rfl, rfl⟩, _, hsend _, by rw [applied_append]; rfl⟩
      | patchMachineStatus space name patch =>
        obtain ⟨rfl, rfl⟩ := Prod.mk.inj hanswer
        exact ⟨_, .inl ⟨rfl, rfl⟩, _, hsend _, by rw [applied_append]; rfl⟩
      | patchMachineSet space name patch =>
        obtain ⟨rfl, rfl⟩ := Prod.mk.inj hanswer
        exact ⟨_, ⟨hstore.1, rfl⟩, _, hsend _, by rw [applied_append]; rfl⟩
      | _ =>
        obtain ⟨rfl, rfl⟩ := Prod.mk.inj hanswer
        exact ⟨_, ⟨hstore.1, rfl⟩, sent, hsent, rfl⟩

/-- The world in memory, seen as a cluster with the document that its patches lead to. -/
def cluster (doc : Json) (w : World) : Cluster := ⟨applied w.patches doc, w.store⟩

theorem cluster_answers (doc : Json) (c : Call) (w : World) :
    (w.cluster doc).Answers c (answer c w).1 ((answer c w).2.cluster doc) := by
  have hstep : w.Answers c (answer c w).1 (answer c w).2 := rfl
  have hcluster : ∃ l, Cluster.Answers ⟨applied w.patches doc, w.store⟩ c (answer c w).1 l ∧
      ∃ sent, (answer c w).2.patches = sent ∧ l = ⟨applied sent doc, (answer c w).2.store⟩ :=
    answers_cluster (w := { w with patches := [] }) (List.nil_append w.patches).symm hstep
  obtain ⟨_, hl, _, rfl, rfl⟩ := hcluster
  exact hl

/-- The run in memory is one that can happen in a cluster whose document takes what is sent. -/
theorem canEnd_cluster (w : World) (x : Attempt α) (doc : Json) :
    ∃ sent, (w.run x).2.patches = w.patches ++ sent ∧
      x.CanEnd Cluster.Answers ⟨doc, w.store⟩ (w.run x).1
        ⟨applied sent doc, (w.run x).2.store⟩ := by
  have hrun : (ExceptT.run x).CanEnd Answers w _ _ :=
    Program.canEnd_run (ExceptT.run x) w fun _ _ => rfl
  obtain ⟨l, hl, sent, hsent, rfl⟩ := hrun.simulate
    (R := fun u (k : Cluster) => ∃ sent, u.patches = w.patches ++ sent ∧
      k = ⟨applied sent doc, u.store⟩)
    (fun ⟨_, hsent, hk⟩ hr => hk ▸ answers_cluster hsent hr) ⟨[], by simp, rfl⟩
  exact ⟨sent, hsent, hl⟩

end Simulation.World

end MachineProvider
