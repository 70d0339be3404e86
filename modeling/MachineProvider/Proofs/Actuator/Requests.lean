import MachineProvider.Proofs.Actuator.Calls
import MachineProvider.Proofs.Reconcile.Worlds

/-! Which servers are asked for. A creation asks for one server at most, once it knows all of the
request, and of the machine itself only the user data can tell. -/
namespace MachineProvider

open Attempt (Ends)
open Cloud (Server ServerRequest Store)
open Kubernetes (Secret)
open Simulation (World)

/-- The server that a call asks for. -/
def Cloud.Call.serverRequest? : Cloud.Call → Option ServerRequest
  | .createServer request => some request
  | _ => none

/-- The server that a call looks up. -/
def Cloud.Call.lookup? : Cloud.Call → Option String
  | .getServer uuid => some uuid
  | _ => none

/-- The servers that a provider was asked for. -/
def Cloud.Store.requests (s : Store) : List ServerRequest :=
  s.calls.filterMap Cloud.Call.serverRequest?

/-- The servers that were looked up. -/
def Cloud.Store.lookups (s : Store) : List String := s.calls.filterMap Cloud.Call.lookup?

/-- What is of interest in a call to the provider. -/
def Call.picked {γ : Type} (pick : Cloud.Call → Option γ) : Call → Option γ
  | .cloud c => pick c
  | _ => none

/-- All that a creation does before it asks for the server: the request it comes to. -/
def Actuator.plan (a : Actuator) (m : Machine) : Attempt (MachineContext × ServerRequest) := do
  let ctx ← a.begin m
  let userData ← loadUserData m ctx.space ctx.spec
  let groups ← ctx.groups
  return (ctx, ctx.serverRequest groups userData)

/-- The request a creation comes to, if it gets so far. -/
def Actuator.asked (a : Actuator) (m : Machine) (w : World) : Option ServerRequest :=
  (w.run (a.plan m)).1.toOption.map Prod.snd

/-- What follows: the server is made, recorded and its root volume tagged. -/
def MachineContext.serve (ctx : MachineContext) (request : ServerRequest) (schedule : Backoff) :
    Attempt Unit := do
  let server ← ctx.createServer request
  ctx.recordServer server
  ctx.tagVolume server schedule

/-- A template with what it sees besides the machine. -/
structure Template where
  source : String
  data : StringMap String
  secrets : List Secret

/-- The template for the user data, if there is one. -/
def loadTemplate (space : String) (spec : ProviderSpec) : Attempt (Option Template) :=
  match spec.userDataSecret with
  | none => return none
  | some reference => do
    let secret ← requireSecret space reference.name
    let source ← requireKey reference.name userDataKey secret.texts
    if source.isEmpty then return none
    else
      let secrets ← selectedSecrets space spec.userDataSecretSelector
      return some ⟨source, secret.texts, secrets⟩

/-- The user data that a template gives for a machine. -/
def Machine.rendered (m : Machine) : Option Template → Except Error String
  | none => .ok ""
  | some t => (renderTemplate t.source
      (TemplateContext.toJson ⟨m.toJson, t.data, t.secrets.map Secret.toJson⟩)).mapError .render

variable {a : Actuator} {m n : Machine} {ctx : MachineContext}
  {request : ServerRequest} {w u : World}
  {space : String} {i : Identity} {spec : ProviderSpec}

section Equations

/-- The essentials of a machine are those of its metadata and what its payload says. -/
theorem essentials_eq_ok : m.essentials = .ok (space, i, spec) ↔
    m.metadata.namespace_ = some space ∧ m.identity? = some i ∧
      ProviderSpec.ofRaw m.spec.providerValue = .ok spec := by
  unfold Machine.essentials Machine.identity?
  cases m.metadata.name with
  | none => exact iff_of_false (by rintro ⟨⟩) (by rintro ⟨-, ⟨⟩, -⟩)
  | some name =>
    cases m.metadata.namespace_ with
    | none => exact iff_of_false (by rintro ⟨⟩) (by rintro ⟨⟨⟩, -⟩)
    | some space =>
      cases m.labels.get? clusterIdLabel with
      | none => exact iff_of_false (by rintro ⟨⟩) (by rintro ⟨-, ⟨⟩, -⟩)
      | some clusterId =>
        cases ProviderSpec.ofRaw m.spec.providerValue with
        | error e => exact iff_of_false (by rintro ⟨⟩) (by rintro ⟨-, -, ⟨⟩⟩)
        | ok spec =>
          constructor
          · rintro ⟨⟩
            exact ⟨rfl, rfl, rfl⟩
          · rintro ⟨⟨⟩, ⟨⟩, ⟨⟩⟩
            rfl

theorem Program.bind_assoc {α β γ : Type} (p : Program α) (f : α → Program β) (g : β → Program γ) :
    (p.bind f).bind g = p.bind fun b => (f b).bind g := by
  induction p with
  | done b => rfl
  | call c next ih =>
    change Program.call c _ = Program.call c _
    exact congrArg _ (funext ih)

theorem Program.bind_done {α : Type} (p : Program α) : p.bind done = p := by
  induction p with
  | done b => rfl
  | call c next ih => exact congrArg (Program.call c) (funext ih)

instance : LawfulMonad Program :=
  LawfulMonad.mk' Program Program.bind_done (fun _ _ => rfl) Program.bind_assoc

theorem create_eq (a : Actuator) (m : Machine) :
    a.create m = a.plan m >>= fun (ctx, request) => ctx.serve request a.taggingBackoff := by
  unfold Actuator.create Actuator.plan MachineContext.serve
  simp only [bind_assoc, pure_bind]

theorem loadUserData_eq (m : Machine) (space : String) (spec : ProviderSpec) :
    loadUserData m space spec = loadTemplate space spec >>=
      fun t => Attempt.ofExcept (m.rendered t) := by
  unfold loadUserData loadTemplate
  cases spec.userDataSecret with
  | none => rfl
  | some reference =>
    simp only [bind_assoc]
    refine congrArg _ (funext fun secret => congrArg _ (funext fun source => ?_))
    split
    · rfl
    · simp only [bind_assoc, pure_bind, Machine.rendered]

/-- Machines with the same essentials begin alike. -/
theorem begin_eq (a : Actuator) (h : n.essentials = m.essentials) :
    a.begin n = a.begin m >>= fun ctx => pure { ctx with machine := n } := by
  unfold Actuator.begin Machine.context
  simp only [bind_assoc, pure_bind, h]

end Equations

section Requests

theorem Cloud.Store.calls_answer (s : Store) (c : Cloud.Call) :
    (s.answer c).2.calls = s.calls ++ [c] := by
  have hperform : ∀ t : Store, (t.perform c).2.calls = t.calls := by
    intro t
    have hdone := t.performs c
    generalize (t.perform c).1 = r, (t.perform c).2 = u at hdone
    cases hdone <;> rfl
  cases hf : s.failure? c.operation with
  | some text => rw [answer_failing hf]
  | none => rw [answer_working hf, hperform]

variable {γ : Type} {pick : Cloud.Call → Option γ}

theorem picked_answer (pick : Cloud.Call → Option γ) (c : Call) (w : World) :
    (World.answer c w).2.store.calls.filterMap pick =
      w.store.calls.filterMap pick ++ (c.picked pick).toList := by
  cases c with
  | cloud c =>
    change (w.store.answer c).2.calls.filterMap pick = _
    rw [Store.calls_answer, List.filterMap_append]
    cases hc : pick c <;> simp [Call.picked, hc]
  | _ =>
    rw [World.store_answer (by rintro _ ⟨⟩)]
    simp [Call.picked]

/-- Programs of other calls leave out what is of interest. -/
theorem picked_run {α : Type} {calls : Call → Prop} {ends : α → Prop} {p : Program α}
    (hp : p.Only calls ends) (hcalls : ∀ c, calls c → c.picked pick = none) (w : World) :
    (p.run World.answer w).2.store.calls.filterMap pick = w.store.calls.filterMap pick := by
  refine (World.run_steps
    (R := fun w u => u.store.calls.filterMap pick = w.store.calls.filterMap pick) (fun _ => rfl)
    (fun h h' => h'.trans h) (fun {c w} hc => ?_) hp w).2
  rw [picked_answer, hcalls c hc, Option.toList_none, List.append_nil]

/-- What was called stays called. -/
theorem calls_run {α : Type} (p : Program α) (w : World) :
    w.store.calls <+: (p.run World.answer w).2.store.calls := by
  refine (World.run_steps (R := fun w u => w.store.calls <+: u.store.calls)
    (fun _ => List.prefix_rfl) List.IsPrefix.trans (fun {c w} _ => ?_) p.only_true w).2
  have hcalls := picked_answer some c w
  simp only [List.filterMap_some] at hcalls
  exact ⟨_, hcalls.symm⟩

/-- What is of interest in the first call of a program comes first. -/
theorem picked_call {α : Type} (pick : Cloud.Call → Option γ) (c : Call)
    (next : c.Answer → Program α) (w : World) :
    ∃ later, ((Program.call c next).run World.answer w).2.store.calls.filterMap pick =
      w.store.calls.filterMap pick ++ (c.picked pick).toList ++ later := by
  obtain ⟨later, hlater⟩ := calls_run (next (World.answer c w).1) (World.answer c w).2
  refine ⟨later.filterMap pick, (congrArg (List.filterMap pick) hlater).symm.trans ?_⟩
  rw [List.filterMap_append, picked_answer]

/-- Calls before a server is asked for. -/
def Call.Plans (c : Call) : Prop := c.Reads ∨ c.Groups

theorem Call.Plans.picked {c : Call} (h : c.Plans) (hlist : ∀ f, pick (.listGroups f) = none)
    (hcreate : ∀ r, pick (.createGroup r) = none) : c.picked pick = none := by
  cases c with
  | cloud c =>
    rcases h with hreads | hgroups
    · exact hreads.elim
    · cases c <;> first | exact hlist _ | exact hcreate _ | exact hgroups.elim
  | _ => rfl

/-- A request is planned without a server being touched, from what the machine says. -/
theorem plan_early (a : Actuator) (m : Machine) :
    (ExceptT.run (a.plan m)).Only Call.Plans (Ends (fun planned =>
      m.essentials = .ok (planned.1.space, planned.1.identity, planned.1.spec) ∧
        ∃ groups userData, planned.2 = planned.1.serverRequest groups userData) Error.Early) := by
  refine Attempt.only_bind ((begin_early a m).mono (fun _ => .inl) fun _ => id) fun ctx hctx => ?_
  refine Attempt.only_bind ((loadUserData_early ..).mono (fun _ => .inl) fun _ => id)
    fun userData _ => ?_
  exact Attempt.only_bind ((groups_early ctx).mono (fun _ => .inr) fun _ => id) fun groups _ =>
    ⟨hctx.2, groups, userData, rfl⟩

theorem planned_of_run (h : w.run (a.plan m) = (.ok (ctx, request), u)) :
    m.essentials = .ok (ctx.space, ctx.identity, ctx.spec) ∧
      ∃ groups userData, request = ctx.serverRequest groups userData := by
  have hends := World.ends_run (w := w) (plan_early a m)
  rwa [show (ExceptT.run (a.plan m)).run World.answer w = _ from h] at hends

theorem Call.Tags.picked_serverRequest {c : Call} (h : c.Tags) :
    c.picked Cloud.Call.serverRequest? = none := by
  cases c with
  | cloud c => cases c <;> first | rfl | exact h.elim
  | _ => rfl

theorem recordServer_control (ctx : MachineContext) (x : Server) :
    (ExceptT.run (ctx.recordServer x)).Only (fun c => ∃ d, c = .control d)
      (Ends (fun _ => True) Error.Plain) :=
  recordServer_only (fun _ _ => ⟨_, rfl⟩) fun _ _ => ⟨_, rfl⟩

/-- One server is asked for, whatever becomes of it. -/
theorem requests_serve (ctx : MachineContext) (request : ServerRequest) (schedule : Backoff)
    (w : World) :
    (w.run (ctx.serve request schedule)).2.store.requests = w.store.requests ++ [request] := by
  have hasked : (w.run (ctx.createServer request)).2.store.requests =
      w.store.requests ++ [request] :=
    picked_answer Cloud.Call.serverRequest? (.cloud (.createServer request)) w
  unfold MachineContext.serve
  cases hx : w.run (ctx.createServer request) with
  | mk r u =>
    rw [hx] at hasked
    cases r with
    | error e =>
      rw [World.run_bind_error hx]
      exact hasked
    | ok x =>
      rw [World.run_bind_ok hx]
      have hrecorded : (ExceptT.run (ctx.recordServer x)).Only
          (fun c => c.picked Cloud.Call.serverRequest? = none) (Ends (fun _ => True) Error.Plain) :=
        (recordServer_control ctx x).mono (by rintro _ ⟨d, rfl⟩; rfl) fun _ => id
      have htagged :=
        (tagVolume_only ctx x schedule).mono (fun _ => Call.Tags.picked_serverRequest) fun _ => id
      exact (picked_run (Attempt.only_bind hrecorded fun _ _ => htagged) (fun _ => id) u).trans
        hasked

/-- A creation asks for one server at most, the one it has planned. -/
theorem requests_create (a : Actuator) (m : Machine) (w : World) :
    (w.run (a.create m)).2.store.requests = w.store.requests ++ (a.asked m w).toList := by
  have hplanned : (w.run (a.plan m)).2.store.requests = w.store.requests :=
    picked_run (plan_early a m) (fun _ hc => hc.picked (fun _ => rfl) fun _ => rfl) w
  rw [create_eq, Actuator.asked]
  cases hx : w.run (a.plan m) with
  | mk r u =>
    rw [hx] at hplanned
    cases r with
    | error e =>
      rw [World.run_bind_error hx]
      exact hplanned.trans (List.append_nil _).symm
    | ok planned =>
      rw [World.run_bind_ok hx]
      refine (requests_serve ..).trans ?_
      rw [hplanned]
      rfl

end Requests

section Lookups

/-- Tagging begins with a look at the server. -/
theorem lookups_tagVolume {tags : Cloud.Tags} (htags : ctx.spec.rootVolumeTags = some tags)
    (x : Server) (schedule : Backoff) (w : World) :
    ∃ later, (w.run (ctx.tagVolume x schedule)).2.store.lookups =
      w.store.lookups ++ x.uuid :: later := by
  have hfirst : ∃ next, ExceptT.run (ctx.tagVolume x schedule) =
      .call (.cloud (.getServer x.uuid)) next := by
    unfold MachineContext.tagVolume
    rw [htags]
    unfold tagRootVolume tagAttempts
    exact ⟨_, rfl⟩
  obtain ⟨next, hnext⟩ := hfirst
  obtain ⟨later, hlater⟩ := picked_call Cloud.Call.lookup? (.cloud (.getServer x.uuid)) next w
  refine ⟨later, ?_⟩
  rw [World.run, hnext, Store.lookups, hlater, List.append_assoc]
  rfl

/-- A server that is made and recorded is looked up when there are tags for its root
volume, even none. -/
theorem lookups_serve {request : ServerRequest} {schedule : Backoff}
    (hok : (w.run (ctx.serve request schedule)).1 = .ok ()) :
    (w.run (ctx.serve request schedule)).2.store.lookups = w.store.lookups ↔
      ctx.spec.rootVolumeTags = none := by
  obtain ⟨x, u, hx, hserved⟩ := World.exists_of_run_bind hok
  have hmade : u.store.lookups = w.store.lookups := by
    have hlookups : (w.run (ctx.createServer request)).2.store.lookups = w.store.lookups ++ [] :=
      picked_answer Cloud.Call.lookup? (.cloud (.createServer request)) w
    rwa [hx, List.append_nil] at hlookups
  rw [MachineContext.serve, hserved] at hok ⊢
  obtain ⟨⟨⟩, v, hrecorded, hrest⟩ := World.exists_of_run_bind hok
  have hsettled : v.store.lookups = u.store.lookups := by
    have hlookups : (u.run (ctx.recordServer x)).2.store.lookups = u.store.lookups :=
      picked_run (recordServer_control ctx x) (by rintro _ ⟨d, rfl⟩; rfl) u
    rwa [hrecorded] at hlookups
  rw [hrest]
  cases htags : ctx.spec.rootVolumeTags with
  | none =>
    have hnothing : v.run (ctx.tagVolume x schedule) = (.ok (), v) := by
      unfold MachineContext.tagVolume
      rw [htags]
      rfl
    rw [hnothing]
    exact iff_of_true (hsettled.trans hmade) rfl
  | some tags =>
    obtain ⟨later, hlater⟩ := lookups_tagVolume htags x schedule v
    rw [hlater, hsettled, hmade]
    simp

/-- A creation that succeeds has looked up its server when there are tags for a root
volume, even none. -/
theorem lookups_create (hspec : ProviderSpec.ofRaw m.spec.providerValue = .ok spec)
    (hok : (w.run (a.create m)).1 = .ok ()) :
    (w.run (a.create m)).2.store.lookups = w.store.lookups ↔ spec.rootVolumeTags = none := by
  rw [create_eq] at hok ⊢
  obtain ⟨⟨ctx, request⟩, u, hplan, hserved⟩ := World.exists_of_run_bind hok
  have hlookups : (w.run (a.plan m)).2.store.lookups = w.store.lookups :=
    picked_run (plan_early a m) (fun _ hc => hc.picked (fun _ => rfl) fun _ => rfl) w
  obtain ⟨-, -, hctx⟩ := essentials_eq_ok.1 (planned_of_run hplan).1
  obtain rfl := Except.ok.inj (hctx.symm.trans hspec)
  rw [hplan] at hlookups
  rw [hserved] at hok ⊢
  rw [← hlookups]
  exact lookups_serve hok

end Lookups

section Alike

theorem rendered_error {t : Option Template} {e : Error} (h : m.rendered t = .error e) :
    ∃ cause, e = .render cause := by
  cases t with
  | none => cases h
  | some t =>
    change (renderTemplate t.source _).mapError Error.render = _ at h
    cases hr : renderTemplate t.source
        (TemplateContext.toJson ⟨m.toJson, t.data, t.secrets.map Secret.toJson⟩) with
    | ok text =>
      rw [hr] at h
      cases h
    | error cause =>
      rw [hr] at h
      exact ⟨cause, (Except.error.inj h).symm⟩

/-- The request of a machine once its context and its template are known. -/
theorem run_plan {begun : MachineContext} {t : Option Template} {v : World}
    (hbegin : w.run (a.begin m) = (.ok begun, u))
    (hload : u.run (loadTemplate begun.space begun.spec) = (.ok t, v)) :
    w.run (a.plan m) = v.run (do
      let userData ← Attempt.ofExcept (m.rendered t)
      let groups ← begun.groups
      return (begun, begun.serverRequest groups userData)) := by
  unfold Actuator.plan
  rw [World.run_bind_ok hbegin, loadUserData_eq, bind_assoc, World.run_bind_ok hload]

/-- Machines with the same essentials come to the same request but for the user data, unless the
template cannot be rendered for one of them. -/
theorem plan_alike (h : n.essentials = m.essentials)
    (hplan : w.run (a.plan m) = (.ok (ctx, request), u)) :
    (∃ userData, w.run (a.plan n) =
      (.ok ({ ctx with machine := n }, { request with userData }), u)) ∨
      ∃ cause v, w.run (a.plan n) = (.error (.render cause), v) := by
  have hok : (w.run (a.plan m)).1 = .ok (ctx, request) := congrArg Prod.fst hplan
  obtain ⟨begun, w₁, hbegin, hbegun⟩ := World.exists_of_run_bind hok
  have hbegin' : w.run (a.begin n) = (.ok { begun with machine := n }, w₁) := by
    rw [begin_eq a h, World.run_bind_ok hbegin]
    rfl
  rw [Actuator.plan, hbegun, loadUserData_eq, bind_assoc] at hok
  obtain ⟨t, w₂, hload, -⟩ := World.exists_of_run_bind hok
  rw [run_plan hbegin hload] at hplan
  rw [run_plan hbegin' hload]
  obtain ⟨userData, w₃, hrendered, hrest⟩ := World.exists_of_run_bind (congrArg Prod.fst hplan)
  rw [World.run_ofExcept] at hrendered
  obtain ⟨-, rfl⟩ := Prod.mk.inj hrendered
  rw [hrest] at hplan
  obtain ⟨groups, w₄, hgroups, hchosen⟩ := World.exists_of_run_bind (congrArg Prod.fst hplan)
  obtain ⟨hrequest, rfl⟩ := Prod.mk.inj (hplan.symm.trans hchosen)
  obtain ⟨rfl, rfl⟩ := Prod.mk.inj (Except.ok.inj hrequest)
  cases hr : n.rendered t with
  | ok userData' =>
    refine .inl ⟨userData', ?_⟩
    have hgroups' : w₂.run ({ ctx with machine := n } : MachineContext).groups =
      (.ok groups, _) := hgroups
    exact (World.run_bind_ok (World.run_ofExcept w₂ _)).trans
      ((World.run_bind_ok hgroups').trans rfl)
  | error e =>
    obtain ⟨cause, rfl⟩ := rendered_error hr
    exact .inr ⟨cause, w₂, World.run_bind_error (World.run_ofExcept w₂ _)⟩

/-- What is asked for follows from the essentials of the machine. -/
theorem asked_essentials (h : a.asked m w = some request) :
    ∃ ctx groups userData, m.essentials = .ok (ctx.space, ctx.identity, ctx.spec) ∧
      request = MachineContext.serverRequest ctx groups userData := by
  obtain ⟨⟨ctx, _⟩, hplanned, rfl⟩ := Option.map_eq_some_iff.1 h
  obtain ⟨hm, groups, userData, hrequest⟩ :=
    planned_of_run (Prod.ext (eq_ok_of_toOption hplanned) rfl)
  exact ⟨ctx, groups, userData, hm, hrequest⟩

/-- A creation that succeeds has asked for a server. -/
theorem asked_of_created (h : (w.run (a.create m)).1 = .ok ()) : (a.asked m w).isSome := by
  rw [create_eq] at h
  obtain ⟨⟨ctx, request⟩, u, hplan, -⟩ := World.exists_of_run_bind h
  rw [Actuator.asked, hplan]
  rfl

theorem asked_alike (h : n.essentials = m.essentials) (hasked : a.asked m w = some request) :
    (∃ userData, a.asked n w = some { request with userData }) ∨
      ∃ cause, (w.run (a.create n)).1 = .error (.render cause) := by
  obtain ⟨⟨ctx, _⟩, hplanned, rfl⟩ := Option.map_eq_some_iff.1 hasked
  rcases plan_alike h (Prod.ext (eq_ok_of_toOption hplanned) rfl) with
    ⟨userData, hn⟩ | ⟨cause, v, hn⟩
  · exact .inl ⟨userData, by rw [Actuator.asked, hn]; rfl⟩
  · exact .inr ⟨cause, by rw [create_eq, World.run_bind_error hn]⟩

end Alike

end MachineProvider
