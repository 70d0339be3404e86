import MachineProvider.Program

/-! What a program keeps to at each of its calls, while others may move the world between them. -/
namespace MachineProvider

/-- Failures that requests to the control plane end with. -/
def Error.OfControl : Error → Prop
  | .control _ | .watch _ => True
  | _ => False

/-- The control plane fails in its own ways only. -/
def Call.Honest : (c : Call) → c.Answer → Prop
  | .control c, r => ∀ e, (r : Except Error c.Result) = .error e → e.OfControl
  | _, _ => True

namespace Call

/-- Calls that ask for secrets or a client and change nothing. -/
def Reads : Call → Prop
  | .client _ | .control (.getSecret _ _) | .control (.listSecrets _ _) => True
  | _ => False

/-- Calls that touch neither a server nor a stored object. -/
def Aside : Call → Prop
  | .cloud (.createServer _) | .cloud (.deleteServer _) => False
  | .control (.patchMachine _ _ _) | .control (.patchMachineStatus _ _ _) => False
  | .control (.patchMachineSet _ _ _) => False
  | _ => True

theorem Reads.aside {c : Call} (h : c.Reads) : c.Aside := by
  unfold Reads at h
  split at h <;> trivial

theorem Reads.not_cloud {c : Call} (h : c.Reads) (d : Cloud.Call) : c ≠ .cloud d := by
  rintro rfl
  exact h

end Call

/-- What others may do to the world between two calls, and what a call itself may do to it. -/
structure Protocol (World : Type) where
  rely : World → World → Prop
  step : World → Call → World → Prop
  rely_refl : ∀ w, rely w w
  rely_trans : ∀ {u v w}, rely u v → rely v w → rely u w

namespace Program

variable {α β World : Type}

/-- All calls are of a kind and all results are, whatever the answers. -/
def Only (calls : Call → Prop) (ends : α → Prop) : Program α → Prop
  | done a => ends a
  | call c next => calls c ∧ ∀ r, c.Honest r → (next r).Only calls ends

/-- Every call made from the world keeps to the protocol, and so does the result. -/
def Keeps (answers : World → (c : Call) → c.Answer → World → Prop) (P : Protocol World)
    (post : α → World → Prop) : Program α → World → Prop
  | done a, w => ∀ u, P.rely w u → post a u
  | call c next, w => ∀ u, P.rely w u → ∀ r v, answers u c r v →
      P.step u c v ∧ (next r).Keeps answers P post v

theorem run_bind (answer : (c : Call) → World → c.Answer × World) (p : Program α)
    (f : α → Program β) (w : World) :
    (p.bind f).run answer w = (f (p.run answer w).1).run answer (p.run answer w).2 := by
  induction p generalizing w with
  | done a => rfl
  | call c next ih => exact ih _ _

section Only

variable {calls calls' : Call → Prop} {ends ends' : α → Prop}

theorem Only.mono {p : Program α} (h : p.Only calls ends) (hc : ∀ c, calls c → calls' c)
    (he : ∀ a, ends a → ends' a) : p.Only calls' ends' := by
  induction p with
  | done a => exact he a h
  | call c next ih => exact ⟨hc c h.1, fun r hr => ih r (h.2 r hr)⟩

theorem only_true (p : Program α) : p.Only (fun _ => True) fun _ => True := by
  induction p with
  | done a => trivial
  | call c next ih => exact ⟨trivial, fun r _ => ih r⟩

theorem Only.bind {p : Program α} {f : α → Program β} {ends : β → Prop}
    (h : p.Only calls fun a => (f a).Only calls ends) : (p.bind f).Only calls ends := by
  induction p with
  | done a => exact h
  | call c next ih => exact ⟨h.1, fun r hr => ih r (h.2 r hr)⟩

/-- A failed attempt ends there, and any other goes on. -/
theorem Only.bind_attempt {x : Attempt α} {f : α → Attempt β} {ends : Except Error β → Prop}
    (h : (ExceptT.run x).Only calls fun
      | .ok a => (ExceptT.run (f a)).Only calls ends
      | .error e => ends (.error e)) : (ExceptT.run (x >>= f)).Only calls ends := by
  refine Only.bind (h.mono (fun _ => id) fun r hr => ?_)
  cases r <;> exact hr

end Only

section Keeps

variable {answers : World → (c : Call) → c.Answer → World → Prop} {P : Protocol World}
  {post post' : α → World → Prop} {w u : World}

theorem Keeps.rely {p : Program α} (h : p.Keeps answers P post w) (hu : P.rely w u) :
    p.Keeps answers P post u := by
  cases p with
  | done a => exact fun v hv => h v (P.rely_trans hu hv)
  | call c next => exact fun v hv => h v (P.rely_trans hu hv)

theorem Keeps.mono {p : Program α} (h : p.Keeps answers P post w)
    (hp : ∀ a u, post a u → post' a u) : p.Keeps answers P post' w := by
  induction p generalizing w with
  | done a => exact fun u hu => hp a u (h u hu)
  | call c next ih =>
    intro u hu r v hv
    obtain ⟨hstep, hnext⟩ := h u hu r v hv
    exact ⟨hstep, ih r hnext⟩

theorem Keeps.bind {p : Program α} {f : α → Program β} {post : β → World → Prop}
    (h : p.Keeps answers P (fun a u => (f a).Keeps answers P post u) w) :
    (p.bind f).Keeps answers P post w := by
  induction p generalizing w with
  | done a => exact h w (P.rely_refl w)
  | call c next ih =>
    intro u hu r v hv
    obtain ⟨hstep, hnext⟩ := h u hu r v hv
    exact ⟨hstep, ih r hnext⟩

/-- An attempt goes on after a success and ends with its failure. -/
theorem Keeps.bind_attempt {x : Attempt α} {f : α → Attempt β} {mid : Except Error α → World → Prop}
    {post : Except Error β → World → Prop} (hx : (ExceptT.run x).Keeps answers P mid w)
    (hok : ∀ a u, mid (.ok a) u → (ExceptT.run (f a)).Keeps answers P post u)
    (herror : ∀ e u v, mid (.error e) u → P.rely u v → post (.error e) v) :
    (ExceptT.run (x >>= f)).Keeps answers P post w := by
  refine Keeps.bind (hx.mono fun r u hr => ?_)
  cases r with
  | ok a => exact hok a u hr
  | error e => exact fun v hv => herror e u v hr hv

/-- Programs of harmless calls keep to the protocol and to what these calls leave alone. -/
theorem Only.keeps {calls : Call → Prop} {ends : α → Prop} {inv : World → Prop} {p : Program α}
    (h : p.Only calls ends) (hrely : ∀ u v, P.rely u v → inv u → inv v)
    (hcall : ∀ u c r v, inv u → calls c → answers u c r v → c.Honest r ∧ P.step u c v ∧ inv v)
    (hw : inv w) : p.Keeps answers P (fun a u => ends a ∧ inv u) w := by
  induction p generalizing w with
  | done a => exact fun u hu => ⟨h, hrely w u hu hw⟩
  | call c next ih =>
    intro u hu r v hv
    obtain ⟨hr, hstep, hinv⟩ := hcall u c r v (hrely w u hu hw) h.1 hv
    exact ⟨hstep, ih r (h.2 r hr) hinv⟩

/-- One run, all of whose calls are answered without anyone in between. -/
theorem Keeps.run {answer : (c : Call) → World → c.Answer × World} {p : Program α}
    (h : p.Keeps (fun u c r v => answer c u = (r, v)) P post w) :
    post (p.run answer w).1 (p.run answer w).2 := by
  induction p generalizing w with
  | done a => exact h w (P.rely_refl w)
  | call c next ih => exact ih _ (h w (P.rely_refl w) _ _ rfl).2

end Keeps

end Program

end MachineProvider
