import Mathlib.Logic.Function.Basic
import Mathlib.Logic.Relation
import MachineProvider.Proofs.Program.Protocol

/-! Several programs in one world, interleaved call by call. -/
namespace MachineProvider

variable {ι World ρ : Type}

/-- How the world answers, which programs may start in it, and how it moves while
none is running. -/
structure System (ι World ρ : Type) where
  answers : World → (c : Call) → c.Answer → World → Prop
  starts : ι → World → Program ρ → Prop
  moves : World → World → Prop

/-- A world and what is left of the program that each index runs, if it runs one. -/
structure Fleet (ι World ρ : Type) where
  world : World
  running : ι → Option (Program ρ)

namespace Fleet

/-- Nobody runs anything. -/
def idle (w : World) : Fleet ι World ρ := ⟨w, fun _ => none⟩

/-- What every index needs for its programs to keep to a protocol that the others can rely on. -/
structure Sound (S : System ι World ρ) (P : ι → Protocol World) (post : ι → ρ → World → Prop)
    (inv : World → Prop) : Prop where
  starts : ∀ i w p, inv w → S.starts i w p → p.Keeps S.answers (P i) (post i) w
  step : ∀ i u c v, inv u → (P i).step u c v → inv v
  others : ∀ i j u c v, i ≠ j → (P i).step u c v → (P j).rely u v
  moves : ∀ u v, inv u → S.moves u v → inv v

/-- The world is in order, and so is what is left of every program. -/
def InOrder (S : System ι World ρ) (P : ι → Protocol World) (post : ι → ρ → World → Prop)
    (inv : World → Prop) (f : Fleet ι World ρ) : Prop :=
  inv f.world ∧ ∀ i p, f.running i = some p → p.Keeps S.answers (P i) (post i) f.world

variable {S : System ι World ρ} {P : ι → Protocol World} {post : ι → ρ → World → Prop}
  {inv : World → Prop} {f g : Fleet ι World ρ}

theorem inOrder_idle {w : World} (h : inv w) : InOrder S P post inv (idle w) :=
  ⟨h, fun i p hp => by simp [idle] at hp⟩

/-- A program that is done has what it promised. -/
theorem InOrder.post_done (h : InOrder S P post inv f) {i : ι} {a : ρ}
    (hi : f.running i = some (.done a)) : post i a f.world :=
  h.2 i _ hi f.world ((P i).rely_refl _)

/-- The next call of an index. -/
def AboutTo (f : Fleet ι World ρ) (i : ι) (c : Call) : Prop :=
  ∃ next, f.running i = some (.call c next)

/-- A program that is about to make a call keeps to the protocol whatever the answer. -/
theorem InOrder.step_next (h : InOrder S P post inv f) {i : ι} {c : Call} (hi : f.AboutTo i c)
    {r : c.Answer} {w : World} (hr : S.answers f.world c r w) : (P i).step f.world c w := by
  obtain ⟨next, hi⟩ := hi
  exact (h.2 i _ hi f.world ((P i).rely_refl _) r w hr).1

variable [DecidableEq ι]

def set (f : Fleet ι World ρ) (i : ι) (p : Option (Program ρ)) : Fleet ι World ρ :=
  { f with running := Function.update f.running i p }

/-- One index starts a program, makes its next call or is done with it; or nobody runs anything and
the world moves by itself. -/
inductive Step (S : System ι World ρ) : Fleet ι World ρ → Fleet ι World ρ → Prop
  | start {f : Fleet ι World ρ} {i p} (h : f.running i = none) (hp : S.starts i f.world p) :
      Step S f (f.set i (some p))
  | call {f : Fleet ι World ρ} {i c next r w} (h : f.running i = some (.call c next))
      (hr : S.answers f.world c r w) : Step S f ({ f with world := w }.set i (some (next r)))
  | finish {f : Fleet ι World ρ} {i a} (h : f.running i = some (.done a)) : Step S f (f.set i none)
  | move {f : Fleet ι World ρ} {w} (h : ∀ i, f.running i = none) (hw : S.moves f.world w) :
      Step S f { f with world := w }

/-- What a run of any length leads to. -/
def Reachable (S : System ι World ρ) : Fleet ι World ρ → Fleet ι World ρ → Prop :=
  Relation.ReflTransGen (Step S)

theorem inOrder_step (hS : Sound S P post inv) (h : Step S f g) (hf : InOrder S P post inv f) :
    InOrder S P post inv g := by
  obtain ⟨hinv, hkeeps⟩ := hf
  cases h with
  | @start i p hi hp =>
    refine ⟨hinv, fun j q hq => ?_⟩
    by_cases hj : j = i
    · subst hj
      obtain rfl : p = q := by simpa [set] using hq
      exact hS.starts j f.world p hinv hp
    · exact hkeeps j q (by simpa [set, hj] using hq)
  | @call i c next r w hi hr =>
    obtain ⟨hstep, hnext⟩ := hkeeps i _ hi f.world ((P i).rely_refl _) r w hr
    refine ⟨hS.step i _ c _ hinv hstep, fun j q hq => ?_⟩
    by_cases hj : j = i
    · subst hj
      obtain rfl : next r = q := by simpa [set] using hq
      exact hnext
    · -- What `i` did is something that `j` has to expect.
      have hrely := hS.others i j _ c _ (Ne.symm hj) hstep
      exact (hkeeps j q (by simpa [set, hj] using hq)).rely hrely
  | @finish i a hi =>
    refine ⟨hinv, fun j q hq => ?_⟩
    by_cases hj : j = i
    · subst hj
      simp [set] at hq
    · exact hkeeps j q (by simpa [set, hj] using hq)
  | move hidle hw =>
    refine ⟨hS.moves _ _ hinv hw, fun j q hq => ?_⟩
    exact absurd hq (by simp [hidle j])

theorem inOrder_reachable (hS : Sound S P post inv) (h : Reachable S f g)
    (hf : InOrder S P post inv f) : InOrder S P post inv g := by
  induction h with
  | refl => exact hf
  | tail _ hstep ih => exact inOrder_step hS hstep ih

/-- The same programs, in a view of their world. -/
def seenAs {World' : Type} (view : World' → World) (f : Fleet ι World' ρ) : Fleet ι World ρ :=
  ⟨view f.world, f.running⟩

/-- Indices make their next calls in the order given, in a world that answers each in one way. -/
def follow (answer : (c : Call) → World → c.Answer × World) :
    List ι → Fleet ι World ρ → Fleet ι World ρ
  | [], f => f
  | i :: is, f =>
    match f.running i with
    | some (.call c next) =>
      let (r, w) := answer c f.world
      follow answer is ({ f with world := w }.set i (some (next r)))
    | _ => follow answer is f

/-- Any order of calls leads to what is a run in a view that admits the answers. -/
theorem reachable_follow {World' : Type} {answer : (c : Call) → World' → c.Answer × World'}
    (view : World' → World)
    (hanswer : ∀ c w, S.answers (view w) c (answer c w).1 (view (answer c w).2)) (is : List ι)
    (f : Fleet ι World' ρ) : Reachable S (f.seenAs view) ((f.follow answer is).seenAs view) := by
  induction is generalizing f with
  | nil => exact .refl
  | cons i is ih =>
    unfold follow
    split
    · next c next hi =>
      have hrest := ih ({ f with world := (answer c f.world).2 }.set i
        (some (next (answer c f.world).1)))
      exact .head (.call hi (hanswer c f.world)) hrest
    · exact ih f

end Fleet

end MachineProvider
