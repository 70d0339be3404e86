import MachineProvider.Jsonnet.Evaluation

/-!
Runs of evaluations on a store. A run that the numbers of a document may stop either gives what is
expected of it, or fails because one of them is not fit.
-/
namespace MachineProvider.Jsonnet

variable {α β ι : Type} {x : Eval α} {f : α → Eval β} {a : α} {frames : Nat} {s t : Store}
  {fit fit' : Prop} {P Q : α → Store → Prop} {R : β → Store → Prop}

theorem Eval.bind_ok (h : x frames s = .ok (a, t)) : (x >>= f) frames s = f a frames t := by
  conv => lhs; whnf
  rw [h]

theorem Eval.bind_error {e : RenderError} (h : x frames s = .error e) :
    (x >>= f) frames s = .error e := by
  conv => lhs; whnf
  rw [h]

/-- An evaluation gives a value and a store as expected, or it fails and something is not fit. -/
def Runs (fit : Prop) (x : Eval α) (frames : Nat) (s : Store) (P : α → Store → Prop) : Prop :=
  (∃ a t, x frames s = .ok (a, t) ∧ P a t) ∨ ¬ fit ∧ x frames s = .error .evaluation

namespace Runs

theorem of_ok (h : x frames s = .ok (a, t)) (hP : P a t) : Runs fit x frames s P :=
  .inl ⟨a, t, h, hP⟩

theorem pure (hP : P a s) : Runs fit (pure a : Eval α) frames s P := of_ok rfl hP

theorem imp (h : Runs fit x frames s P) (hfit : fit' → fit) (hPQ : ∀ a t, P a t → Q a t) :
    Runs fit' x frames s Q := by
  rcases h with ⟨a, t, hx, hP⟩ | ⟨hunfit, hx⟩
  · exact .inl ⟨a, t, hx, hPQ a t hP⟩
  · exact .inr ⟨fun h => hunfit (hfit h), hx⟩

theorem bind (h : Runs fit x frames s P) (hf : ∀ a t, P a t → Runs fit (f a) frames t R) :
    Runs fit (x >>= f) frames s R := by
  rcases h with ⟨a, t, hx, hP⟩ | ⟨hunfit, hx⟩
  · rcases hf a t hP with ⟨b, u, hb, hR⟩ | ⟨hunfit, hb⟩
    · exact .inl ⟨b, u, (Eval.bind_ok hx).trans hb, hR⟩
    · exact .inr ⟨hunfit, (Eval.bind_ok hx).trans hb⟩
  · exact .inr ⟨hunfit, Eval.bind_error hx⟩

theorem congr {x' : Eval α} (h : x frames s = x' frames s) (hx : Runs fit x' frames s P) :
    Runs fit x frames s P := by
  unfold Runs
  rw [h]
  exact hx

theorem bind_ok (h : x frames s = .ok (a, t)) (hf : Runs fit (f a) frames t R) :
    Runs fit (x >>= f) frames s R := by
  unfold Runs
  rw [Eval.bind_ok h]
  exact hf

theorem framed (hframes : frames ≤ Eval.maxFrames) (h : Runs fit x (frames + 1) s P) :
    Runs fit (Eval.framed x) frames s P := by
  have heq : Eval.framed x frames s = x (frames + 1) s := by
    have hread : (read : Eval Nat) frames s = .ok (frames, s) := rfl
    refine (Eval.bind_ok hread).trans ?_
    rw [if_neg (Nat.not_lt.2 hframes)]
    rfl
  unfold Runs
  rw [heq]
  exact h

/-- A loop whose every round does its part and leaves the rest to the others. -/
theorem mapM {key : ι → α} {f : α → Eval β} {g : ι → β} {I : List ι → Store → Prop}
    (step : ∀ i is s, I (i :: is) s → Runs fit (f (key i)) frames s fun b t => b = g i ∧ I is t) :
    ∀ is s, I is s →
      Runs fit ((is.map key).mapM f) frames s fun bs t => bs = is.map g ∧ I [] t := by
  intro is
  induction is with
  | nil => exact fun s hs => pure ⟨rfl, hs⟩
  | cons i is ih =>
    intro s hs
    rw [List.map_cons, List.mapM_cons]
    refine (step i is s hs).bind fun b t hb => ?_
    obtain ⟨rfl, ht⟩ := hb
    refine (ih t ht).bind fun bs u hbs => ?_
    obtain ⟨rfl, hu⟩ := hbs
    exact pure ⟨rfl, hu⟩

end Runs

end MachineProvider.Jsonnet
