import MachineProvider.Proofs.Cloud.Bearers
import MachineProvider.Proofs.Program.Endings
import MachineProvider.Simulation.World

/-! Runs in the world in memory: one attempt after another, and what reads depend on. -/
namespace MachineProvider.Simulation.World

variable {α β : Type} {w u : World} {c : Call}

theorem run_bind_ok {x : Attempt α} {f : α → Attempt β} {a : α} (h : w.run x = (.ok a, u)) :
    w.run (x >>= f) = u.run (f a) := by
  have hbind := Program.run_bind answer (ExceptT.run x) (ExceptT.bindCont f) w
  rw [show (ExceptT.run x).run answer w = (.ok a, u) from h] at hbind
  exact hbind

theorem run_bind_error {x : Attempt α} {f : α → Attempt β} {e : Error}
    (h : w.run x = (.error e, u)) :
    w.run (x >>= f) = (.error e, u) := by
  have hbind := Program.run_bind answer (ExceptT.run x) (ExceptT.bindCont f) w
  rw [show (ExceptT.run x).run answer w = (.error e, u) from h] at hbind
  exact hbind

theorem run_cloud (w : World) (c : Cloud.Call) :
    w.run (Attempt.cloud c) = ((w.store.answer c).1.mapError .cloud,
      { w with store := (w.store.answer c).2 }) := rfl

theorem run_ofExcept (w : World) (r : Except Error α) : w.run (Attempt.ofExcept r) = (r, w) := by
  cases r <;> rfl

theorem run_getSecret (h : w.broken.contains "get_secret" = false) (space name : String) :
    w.run (Attempt.control (.getSecret space name)) = (.ok (w.findSecret space name), w) := by
  change w.answerControl (.getSecret space name) = _
  unfold answerControl
  rw [show w.broken.contains (requestName (.getSecret space name)) = false from h]
  rfl

theorem run_listSecrets (h : w.broken.contains "list_secrets" = false) (space selector : String) :
    w.run (Attempt.control (.listSecrets space selector)) =
      (.ok (w.matchingSecrets space selector), w) := by
  change w.answerControl (.listSecrets space selector) = _
  unfold answerControl
  rw [show w.broken.contains (requestName (.listSecrets space selector)) = false from h]
  rfl

/-- An attempt that succeeds has succeeded with its first part and gone on from there. -/
theorem exists_of_run_bind {x : Attempt α} {f : α → Attempt β} {b : β}
    (h : (w.run (x >>= f)).1 = .ok b) :
    ∃ a u, w.run x = (.ok a, u) ∧ w.run (x >>= f) = u.run (f a) := by
  cases hx : w.run x with
  | mk r u =>
    cases r with
    | ok a => exact ⟨a, u, rfl, run_bind_ok hx⟩
    | error e =>
      rw [run_bind_error hx] at h
      cases h

theorem answer_honest : c.Honest (answer c w).1 := by
  cases c with
  | control c =>
    intro e he
    change (w.answerControl c).1 = .error e at he
    unfold answerControl at he
    split at he
    · cases he
      trivial
    · cases c <;> cases he
  | _ => trivial

/-- The world in memory answers each call in one way. -/
def Answers (w : World) (c : Call) (r : c.Answer) (u : World) : Prop := answer c w = (r, u)

/-- Its provider answers as a provider may. -/
theorem Answers.store {r : c.Answer} (h : w.Answers c r u) : w.store.Answers c r u.store := by
  have hr : (answer c w).1 = r := congrArg Prod.fst h
  obtain rfl : (answer c w).2 = u := congrArg Prod.snd h
  cases c with
  | cloud c =>
    obtain rfl : (w.store.answer c).1 = r := hr
    exact .answered
  | control c =>
    refine ⟨hr ▸ answer_honest, ?_⟩
    change (w.answerControl c).2.store = w.store
    unfold answerControl
    split
    · rfl
    · cases c <;> rfl
  | client token =>
    change (w.answerClient token).2.store = w.store
    unfold answerClient
    split <;> rfl
  | sleep d => rfl
  | draw width => rfl

/-- Two worlds that answer secrets and clients alike. -/
structure ReadsAlike (w u : World) : Prop where
  secrets : u.secrets = w.secrets
  broken : u.broken = w.broken
  strictTokens : u.strictTokens = w.strictTokens

theorem ReadsAlike.trans {v : World} (h : ReadsAlike w u) (h' : ReadsAlike u v) : ReadsAlike w v :=
  ⟨h'.1.trans h.1, h'.2.trans h.2, h'.3.trans h.3⟩

theorem readsAlike_answer (c : Call) (w : World) : ReadsAlike w (answer c w).2 := by
  cases c with
  | client token =>
    change ReadsAlike w (w.answerClient token).2
    unfold answerClient
    split <;> exact ⟨rfl, rfl, rfl⟩
  | control c =>
    change ReadsAlike w (w.answerControl c).2
    unfold answerControl
    split
    · exact ⟨rfl, rfl, rfl⟩
    · cases c <;> exact ⟨rfl, rfl, rfl⟩
  | _ => exact ⟨rfl, rfl, rfl⟩

theorem ReadsAlike.answer (h : ReadsAlike w u) (c : Call) :
    ReadsAlike (answer c w).2 (answer c u).2 := by
  obtain ⟨hsecrets, hbroken, hstrict⟩ := readsAlike_answer c w
  obtain ⟨hsecrets', hbroken', hstrict'⟩ := readsAlike_answer c u
  exact ⟨by rw [hsecrets', hsecrets, h.1], by rw [hbroken', hbroken, h.2],
    by rw [hstrict', hstrict, h.3]⟩

/-- Only the provider's answers are a matter of anything else. -/
theorem answer_eq_of_readsAlike (hc : ∀ d, c ≠ .cloud d) (h : ReadsAlike w u) :
    (answer c u).1 = (answer c w).1 := by
  obtain ⟨hsecrets, hbroken, hstrict⟩ := h
  cases c with
  | client token =>
    change (u.answerClient token).1 = (w.answerClient token).1
    unfold answerClient
    rw [hstrict]
    split <;> rfl
  | control c =>
    change (u.answerControl c).1 = (w.answerControl c).1
    unfold answerControl
    rw [hbroken]
    split
    · rfl
    · cases c with
      | getSecret _ _ => simp [findSecret, hsecrets]
      | listSecrets _ _ => simp [matchingSecrets, hsecrets]
      | _ => rfl
  | cloud d => exact absurd rfl (hc d)
  | sleep d => rfl
  | draw width => rfl

theorem store_answer (hc : ∀ d, c ≠ .cloud d) : (answer c w).2.store = w.store := by
  have hstore := Answers.store (show w.Answers c (answer c w).1 (answer c w).2 from rfl)
  cases c with
  | cloud d => exact absurd rfl (hc d)
  | control c => exact hstore.2
  | client token => exact hstore
  | sleep d => exact hstore
  | draw width => exact hstore

variable {calls : Call → Prop} {ends : α → Prop} {p : Program α} {R : World → World → Prop}

/-- A program leads where its calls lead, and ends as it may. -/
theorem run_steps (hrefl : ∀ w, R w w) (htrans : ∀ {u v w}, R u v → R v w → R u w)
    (hcall : ∀ {c w}, calls c → R w (answer c w).2) (hp : p.Only calls ends) (w : World) :
    ends (p.run answer w).1 ∧ R w (p.run answer w).2 := by
  have hrun : p.CanEnd Answers w (p.run answer w).1 (p.run answer w).2 :=
    Program.canEnd_run p w fun _ _ => rfl
  refine hp.canEnd hrefl htrans (fun {u c r v} hc hr => ?_) hrun
  obtain ⟨rfl, rfl⟩ := Prod.mk.inj (show ((answer c u).1, (answer c u).2) = (r, v) from hr)
  exact ⟨answer_honest, hcall hc⟩

/-- Worlds in which each call is answered alike are told apart by no program of such calls. -/
theorem run_related (hcall : ∀ {c w u}, R w u → calls c →
      (answer c u).1 = (answer c w).1 ∧ R (answer c w).2 (answer c u).2)
    (hp : p.Only calls ends) (h : R w u) :
    (p.run answer u).1 = (p.run answer w).1 ∧ R (p.run answer w).2 (p.run answer u).2 := by
  induction p generalizing w u with
  | done a => exact ⟨rfl, h⟩
  | call c next ih =>
    obtain ⟨hresult, hafter⟩ := hcall h hp.1
    change ((next (answer c u).1).run answer (answer c u).2).1 = _ ∧ R _
      ((next (answer c u).1).run answer (answer c u).2).2
    rw [hresult]
    exact ih _ (hp.2 _ answer_honest) hafter

/-- A program of reads ends alike in worlds that answer them alike. -/
theorem run_eq_of_reads (hp : p.Only Call.Reads ends) (h : ReadsAlike w u) :
    (p.run answer u).1 = (p.run answer w).1 :=
  (run_related (fun h hc => ⟨answer_eq_of_readsAlike hc.not_cloud h, h.answer _⟩) hp h).1

theorem ends_run (hp : p.Only calls ends) : ends (p.run answer w).1 :=
  (run_steps (R := fun _ _ => True) (fun _ => trivial) (fun _ _ => trivial)
    (fun _ => trivial) hp w).1

/-- Secrets and clients are answered as before after any program. -/
theorem readsAlike_run (p : Program α) (w : World) : ReadsAlike w (p.run answer w).2 :=
  (run_steps (R := ReadsAlike) (fun _ => ⟨rfl, rfl, rfl⟩) ReadsAlike.trans
    (fun _ => readsAlike_answer ..) p.only_true w).2

theorem store_run_of_reads (hp : p.Only Call.Reads ends) : (p.run answer w).2.store = w.store :=
  (run_steps (R := fun w u => u.store = w.store) (fun _ => rfl) (fun h h' => h'.trans h)
    (fun hc => store_answer hc.not_cloud) hp w).2

end MachineProvider.Simulation.World
