import MachineProvider.Proofs.Program.Fleet

/-! A fleet whose programs are watched: each index has a note of what its calls were answered. -/
namespace MachineProvider

variable {ι World ρ Note κ : Type}

/-- What is noted before a program starts, and after each answer to it. -/
structure Notebook (Note : Type) where
  blank : Note
  note : Note → (c : Call) → c.Answer → Note

/-- For the notes on one program, every honest answer is to be expected. -/
def Notebook.answers (B : Notebook Note) (ν : Note) (c : Call) (r : c.Answer) (ν' : Note) : Prop :=
  c.Honest r ∧ ν' = B.note ν c r

/-- A fleet and the notes on each index. -/
structure Watched (ι World ρ Note : Type) where
  fleet : Fleet ι World ρ
  notes : ι → Note

namespace Watched

/-- Nobody runs anything, and nothing is noted. -/
def idle (B : Notebook Note) (w : World) : Watched ι World ρ Note := ⟨.idle w, fun _ => B.blank⟩

variable {S : System ι World ρ} {B : Notebook Note} {w w' : Watched ι World ρ Note}
  {P : κ → Protocol Note}

/-- What is left of each program keeps to one of the protocols, going by the notes on it. -/
def Kept (B : Notebook Note) (P : κ → Protocol Note) (w : Watched ι World ρ Note) : Prop :=
  ∀ i p, w.fleet.running i = some p →
    ∃ k, p.Keeps B.answers (P k) (fun _ _ => True) (w.notes i)

theorem kept_idle {u : World} : Kept B P (idle B u : Watched ι World ρ Note) := by
  intro i p hp
  simp [idle, Fleet.idle] at hp

/-- The call a program is about to make is one its protocol has. -/
theorem Kept.allowed (hw : Kept B P w) {i : ι} {c : Call} (hi : w.fleet.AboutTo i c) {r : c.Answer}
    (hr : c.Honest r) : ∃ k, (P k).step (w.notes i) c (B.note (w.notes i) c r) := by
  obtain ⟨next, hi⟩ := hi
  obtain ⟨k, hk⟩ := hw i _ hi
  exact ⟨k, (hk _ ((P k).rely_refl _) r _ ⟨hr, rfl⟩).1⟩

variable [DecidableEq ι]

/-- A step of the fleet, with the note it leads to. -/
inductive Step (S : System ι World ρ) (B : Notebook Note) :
    Watched ι World ρ Note → Watched ι World ρ Note → Prop
  | start {w : Watched ι World ρ Note} {i p} (h : w.fleet.running i = none)
      (hp : S.starts i w.fleet.world p) :
      Step S B w ⟨w.fleet.set i (some p), Function.update w.notes i B.blank⟩
  | call {w : Watched ι World ρ Note} {i c next r u} (h : w.fleet.running i = some (.call c next))
      (hr : S.answers w.fleet.world c r u) :
      Step S B w ⟨{ w.fleet with world := u }.set i (some (next r)),
        Function.update w.notes i (B.note (w.notes i) c r)⟩
  | finish {w : Watched ι World ρ Note} {i a} (h : w.fleet.running i = some (.done a)) :
      Step S B w ⟨w.fleet.set i none, Function.update w.notes i B.blank⟩
  | move {w : Watched ι World ρ Note} {u} (h : ∀ i, w.fleet.running i = none)
      (hu : S.moves w.fleet.world u) : Step S B w { w with fleet := { w.fleet with world := u } }

theorem Step.fleet (h : Step S B w w') : Fleet.Step S w.fleet w'.fleet := by
  cases h with
  | start h hp => exact .start h hp
  | call h hr => exact .call h hr
  | finish h => exact .finish h
  | move h hu => exact .move h hu

/-- Watching keeps nobody from anything. -/
theorem exists_step {g : Fleet ι World ρ} (h : Fleet.Step S w.fleet g) :
    ∃ w', Step S B w w' ∧ w'.fleet = g := by
  obtain ⟨f, notes⟩ := w
  cases h with
  | start h hp => exact ⟨_, .start h hp, rfl⟩
  | call h hr => exact ⟨_, .call h hr, rfl⟩
  | finish h => exact ⟨_, .finish h, rfl⟩
  | move h hu => exact ⟨_, .move h hu, rfl⟩

theorem kept_step (hhonest : ∀ {u c r v}, S.answers u c r v → c.Honest r)
    (hstarts : ∀ {i u p}, S.starts i u p → ∃ k, p.Keeps B.answers (P k) (fun _ _ => True) B.blank)
    (h : Step S B w w') (hw : Kept B P w) : Kept B P w' := by
  intro j q hq
  cases h with
  | @start i p _ hp =>
    by_cases hj : j = i
    · subst hj
      obtain rfl : p = q := by simpa [Fleet.set] using hq
      simpa using hstarts hp
    · simpa [hj] using hw j q (by simpa [Fleet.set, hj] using hq)
  | @call i c next r u hi hr =>
    by_cases hj : j = i
    · subst hj
      obtain rfl : next r = q := by simpa [Fleet.set] using hq
      obtain ⟨k, hk⟩ := hw j _ hi
      exact ⟨k, by simpa using (hk _ ((P k).rely_refl _) r _ ⟨hhonest hr, rfl⟩).2⟩
    · simpa [hj] using hw j q (by simpa [Fleet.set, hj] using hq)
  | @finish i a _ =>
    by_cases hj : j = i
    · subst hj
      simp [Fleet.set] at hq
    · simpa [hj] using hw j q (by simpa [Fleet.set, hj] using hq)
  | move h _ => exact absurd hq (by simp [h j])

end Watched

end MachineProvider
