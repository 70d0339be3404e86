import MachineProvider.Proofs.Program.Protocol

/-! How the runs of a program may end, when each of its calls may be answered in more
than one way. -/
namespace MachineProvider

namespace Program

variable {α β World World' : Type} {answers : World → (c : Call) → c.Answer → World → Prop}
  {w u v : World}

/-- Some run of the program from one world ends with a result in another. -/
def CanEnd (answers : World → (c : Call) → c.Answer → World → Prop) :
    Program α → World → α → World → Prop
  | done a, w, b, u => b = a ∧ u = w
  | call c next, w, b, u => ∃ r v, answers w c r v ∧ (next r).CanEnd answers v b u

theorem canEnd_bind {p : Program α} {f : α → Program β} {b : β} :
    (p.bind f).CanEnd answers w b u ↔
      ∃ a v, p.CanEnd answers w a v ∧ (f a).CanEnd answers v b u := by
  induction p generalizing w with
  | done a =>
    constructor
    · intro h
      exact ⟨a, w, ⟨rfl, rfl⟩, h⟩
    · rintro ⟨a, v, ⟨rfl, rfl⟩, h⟩
      exact h
  | call c next ih =>
    constructor
    · rintro ⟨r, v, hr, h⟩
      obtain ⟨a, x, ha, hb⟩ := (ih r).1 h
      exact ⟨a, x, ⟨r, v, hr, ha⟩, hb⟩
    · rintro ⟨a, x, ⟨r, v, hr, ha⟩, hb⟩
      exact ⟨r, v, hr, (ih r).2 ⟨a, x, ha, hb⟩⟩

theorem canEnd_perform {c : Call} {r : c.Answer} :
    (perform c).CanEnd answers w r u ↔ answers w c r u := by
  constructor
  · rintro ⟨r', v, hr, rfl, rfl⟩
    exact hr
  · intro h
    exact ⟨r, u, h, rfl, rfl⟩

/-- A world that answers in one way only has one run, which is one of those that may be. -/
theorem canEnd_run {answer : (c : Call) → World → c.Answer × World} (p : Program α) (w : World)
    (h : ∀ u c, answers u c (answer c u).1 (answer c u).2) :
    p.CanEnd answers w (p.run answer w).1 (p.run answer w).2 := by
  induction p generalizing w with
  | done a => exact ⟨rfl, rfl⟩
  | call c next ih => exact ⟨_, _, h w c, ih _ _⟩

/-- Runs carry over to a world in which every call can be answered alike. -/
theorem CanEnd.simulate {answers' : World' → (c : Call) → c.Answer → World' → Prop}
    {R : World → World' → Prop}
    (hR : ∀ {w c r v w'}, R w w' → answers w c r v → ∃ v', answers' w' c r v' ∧ R v v')
    {p : Program α} {a : α} {w' : World'} (hw : R w w') (h : p.CanEnd answers w a u) :
    ∃ u', p.CanEnd answers' w' a u' ∧ R u u' := by
  induction p generalizing w w' with
  | done b =>
    obtain ⟨rfl, rfl⟩ := h
    exact ⟨w', ⟨rfl, rfl⟩, hw⟩
  | call c next ih =>
    obtain ⟨r, v, hr, hnext⟩ := h
    obtain ⟨v', hr', hv⟩ := hR hw hr
    obtain ⟨u', hu', hu⟩ := ih r hv hnext
    exact ⟨u', ⟨r, v', hr', hu'⟩, hu⟩

/-- Calls of a kind that leave something as it is, and a result of a kind. -/
theorem Only.canEnd {calls : Call → Prop} {ends : α → Prop} {R : World → World → Prop}
    (hrefl : ∀ w, R w w) (htrans : ∀ {u v w}, R u v → R v w → R u w)
    (hcall : ∀ {u c r v}, calls c → answers u c r v → c.Honest r ∧ R u v)
    {p : Program α} {a : α} (hp : p.Only calls ends) (h : p.CanEnd answers w a u) :
    ends a ∧ R w u := by
  induction p generalizing w with
  | done b =>
    obtain ⟨rfl, rfl⟩ := h
    exact ⟨hp, hrefl _⟩
  | call c next ih =>
    obtain ⟨r, v, hr, hnext⟩ := h
    obtain ⟨hhonest, hv⟩ := hcall hp.1 hr
    obtain ⟨ha, hu⟩ := ih r (hp.2 r hhonest) hnext
    exact ⟨ha, htrans hv hu⟩

end Program

namespace Attempt

variable {α β World : Type} {answers : World → (c : Call) → c.Answer → World → Prop} {w u : World}

/-- Some run of the attempt from one world ends with a result in another. -/
def CanEnd (answers : World → (c : Call) → c.Answer → World → Prop) (x : Attempt α) (w : World)
    (r : Except Error α) (u : World) : Prop := (ExceptT.run x).CanEnd answers w r u

/-- A sequence ends with what follows its first part, or with the failure of that. -/
theorem canEnd_bind {x : Attempt α} {f : α → Attempt β} {r : Except Error β} :
    (x >>= f).CanEnd answers w r u ↔
      (∃ a v, x.CanEnd answers w (.ok a) v ∧ (f a).CanEnd answers v r u) ∨
        ∃ e, r = .error e ∧ x.CanEnd answers w (.error e) u := by
  refine Program.canEnd_bind.trans ⟨?_, ?_⟩
  · rintro ⟨a | a, v, hx, hf⟩
    · obtain ⟨rfl, rfl⟩ := hf
      exact .inr ⟨a, rfl, hx⟩
    · exact .inl ⟨a, v, hx, hf⟩
  · rintro (⟨a, v, hx, hf⟩ | ⟨e, rfl, hx⟩)
    · exact ⟨.ok a, v, hx, hf⟩
    · exact ⟨.error e, u, hx, rfl, rfl⟩

theorem canEnd_pure {a : α} {r : Except Error α} :
    (pure a : Attempt α).CanEnd answers w r u ↔ r = .ok a ∧ u = w := Iff.rfl

theorem canEnd_throw {e : Error} {r : Except Error α} :
    (throw e : Attempt α).CanEnd answers w r u ↔ r = .error e ∧ u = w := Iff.rfl

/-- What is made of a good result changes nothing else. -/
theorem canEnd_map {x : Attempt α} {f : α → β} {r : Except Error β} :
    (x >>= fun a => pure (f a)).CanEnd answers w r u ↔
      ∃ r', r = r'.map f ∧ x.CanEnd answers w r' u := by
  refine canEnd_bind.trans ⟨?_, ?_⟩
  · rintro (⟨a, v, hx, hdone⟩ | ⟨e, rfl, hx⟩)
    · obtain ⟨rfl, rfl⟩ := canEnd_pure.1 hdone
      exact ⟨.ok a, rfl, hx⟩
    · exact ⟨.error e, rfl, hx⟩
  · rintro ⟨a | a, rfl, hx⟩
    · exact .inr ⟨a, rfl, hx⟩
    · exact .inl ⟨a, u, hx, rfl, rfl⟩

theorem canEnd_ofExcept {x r : Except Error α} :
    (ofExcept x).CanEnd answers w r u ↔ r = x ∧ u = w := by
  cases x <;> exact Iff.rfl

theorem canEnd_control {c : ControlCall} {r : Except Error c.Result} :
    (control c).CanEnd answers w r u ↔ answers w (.control c) r u := Program.canEnd_perform

/-- A provider call whose failure is turned into one of the attempt. -/
theorem canEnd_cloud_mapError {c : Cloud.Call} {f : Cloud.Error → Error}
    {r : Except Error c.Result} :
    (ExceptT.mk do
      let answer : Except Cloud.Error c.Result ← Program.perform (.cloud c)
      return answer.mapError f : Attempt c.Result).CanEnd answers w r u ↔
      ∃ answer : Except Cloud.Error c.Result,
        r = answer.mapError f ∧ answers w (.cloud c) answer u := by
  constructor
  · rintro ⟨answer, v, hr, rfl, rfl⟩
    exact ⟨answer, rfl, hr⟩
  · rintro ⟨answer, rfl, hr⟩
    exact ⟨answer, u, hr, rfl, rfl⟩

theorem canEnd_cloud {c : Cloud.Call} {r : Except Error c.Result} :
    (cloud c).CanEnd answers w r u ↔
      ∃ answer : Except Cloud.Error c.Result,
        r = answer.mapError .cloud ∧ answers w (.cloud c) answer u := canEnd_cloud_mapError

end Attempt

end MachineProvider
