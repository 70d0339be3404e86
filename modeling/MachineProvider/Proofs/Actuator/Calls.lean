import MachineProvider.Reconcile
import MachineProvider.Proofs.Program.Protocol

/-! Which calls the parts of an operation make, and how they end, whatever the answers. -/
namespace MachineProvider

/-- Any failure but that of finding several servers for one identity. -/
def Error.Plain (e : Error) : Prop :=
  ∀ name clusterId uuids, e ≠ .ambiguousIdentity name clusterId uuids

/-- Failures of an operation that has no server in hand yet. -/
def Error.Early : Error → Prop
  | .ambiguousIdentity _ _ _ | .rootVolumeTagging _ _ _ | .invalidDelay => False
  | _ => True

theorem Error.Early.plain {e : Error} (h : e.Early) : e.Plain := by
  rintro _ _ _ rfl
  exact h

theorem Error.OfControl.early {e : Error} (h : e.OfControl) : e.Early := by
  unfold Error.OfControl at h
  split at h
  · trivial
  · trivial
  · exact h.elim

theorem Error.OfControl.plain {e : Error} (h : e.OfControl) : e.Plain := h.early.plain

namespace Attempt

variable {α : Type}

/-- A result that is good, or a failure of a kind. -/
def Ends (good : α → Prop) (bad : Error → Prop) : Except Error α → Prop
  | .ok a => good a
  | .error e => bad e

theorem Ends.imp {good good' : α → Prop} {bad : Error → Prop} (h : ∀ a, good a → good' a)
    (r : Except Error α) (hr : Ends good bad r) : Ends good' bad r := by
  cases r with
  | ok a => exact h a hr
  | error e => exact hr

theorem Ends.plain {good : α → Prop} (r : Except Error α) (hr : Ends good Error.Early r) :
    Ends good Error.Plain r := by
  cases r with
  | ok a => exact hr
  | error e => exact Error.Early.plain hr

theorem run_ofExcept (r : Except Error α) : ExceptT.run (ofExcept r) = .done r := by
  cases r <;> rfl

theorem control_early {c : ControlCall} {calls : Call → Prop} (hc : calls (.control c)) :
    (ExceptT.run (control c)).Only calls (Ends (fun _ => True) Error.Early) := by
  refine ⟨hc, fun r hr => ?_⟩
  cases r with
  | ok a => trivial
  | error e => exact (hr e rfl).early

theorem control_only {c : ControlCall} {calls : Call → Prop} (hc : calls (.control c)) :
    (ExceptT.run (control c)).Only calls (Ends (fun _ => True) Error.Plain) :=
  (control_early hc).mono (fun _ => id) Ends.plain

theorem client_early (token : String) :
    (ExceptT.run (client token)).Only Call.Reads (Ends (fun _ => True) Error.Early) := by
  refine ⟨trivial, fun r _ => ?_⟩
  cases (r : Except Cloud.Error Unit) <;> trivial

theorem cloud_early {c : Cloud.Call} {calls : Call → Prop} (hc : calls (.cloud c)) :
    (ExceptT.run (cloud c)).Only calls (Ends (fun _ => True) Error.Early) := by
  refine ⟨hc, fun r _ => ?_⟩
  cases (r : Except Cloud.Error c.Result) <;> trivial

theorem cloud_only {c : Cloud.Call} {calls : Call → Prop} (hc : calls (.cloud c)) :
    (ExceptT.run (cloud c)).Only calls (Ends (fun _ => True) Error.Plain) :=
  (cloud_early hc).mono (fun _ => id) Ends.plain

theorem only_ofExcept {r : Except Error α} {calls : Call → Prop} {good : α → Prop}
    {bad : Error → Prop} (h : Ends good bad r) :
    (ExceptT.run (ofExcept r)).Only calls (Ends good bad) := by
  rw [run_ofExcept]
  exact h

theorem only_bind {β : Type} {x : Attempt α} {f : α → Attempt β} {calls : Call → Prop}
    {good : α → Prop} {good' : β → Prop} {bad : Error → Prop}
    (hx : (ExceptT.run x).Only calls (Ends good bad))
    (hf : ∀ a, good a → (ExceptT.run (f a)).Only calls (Ends good' bad)) :
    (ExceptT.run (x >>= f)).Only calls (Ends good' bad) := by
  refine Program.Only.bind_attempt (hx.mono (fun _ => id) fun r hr => ?_)
  cases r with
  | ok a => exact hf a hr
  | error e => exact hr

theorem only_any {x : Attempt α} {calls : Call → Prop} {ends : Except Error α → Prop}
    (hx : (ExceptT.run x).Only calls ends) :
    (ExceptT.run x).Only calls (Ends (fun _ => True) fun _ => True) :=
  hx.mono (fun _ => id) fun r _ => by cases r <;> trivial

/-- Calls of a kind are followed by such calls again, however the first ones ended. -/
theorem only_then {β : Type} {x : Attempt α} {f : α → Attempt β} {calls : Call → Prop}
    {good : α → Prop} {bad : Error → Prop} (hx : (ExceptT.run x).Only calls (Ends good bad))
    (hf : ∀ r, good r → (ExceptT.run (f r)).Only calls fun _ => True) :
    (ExceptT.run (x >>= f)).Only calls fun _ => True := by
  refine Program.Only.bind_attempt (hx.mono (fun _ => id) fun r hr => ?_)
  cases r with
  | ok r => exact hf r hr
  | error e => trivial

end Attempt

open Attempt (Ends)

theorem requireSecret_early (space name : String) :
    (ExceptT.run (requireSecret space name)).Only Call.Reads
      (Ends (fun _ => True) Error.Early) := by
  refine Attempt.only_bind (Attempt.control_early (c := .getSecret space name) trivial) ?_
  intro found _
  cases found with
  | some secret => trivial
  | none => trivial

theorem requireKey_early (name key : String) (texts : StringMap String) :
    (ExceptT.run (requireKey name key texts)).Only Call.Reads
      (Ends (fun _ => True) Error.Early) := by
  unfold requireKey
  cases texts.get? key with
  | some text => trivial
  | none => trivial

theorem resolveToken_early (space defaultToken : String) (reference : Option SecretReference) :
    (ExceptT.run (resolveToken space defaultToken reference)).Only Call.Reads
      (Ends (fun _ => True) Error.Early) := by
  cases reference with
  | none => trivial
  | some reference =>
    exact Attempt.only_bind (requireSecret_early ..) fun secret _ => requireKey_early ..

/-- The name and the cluster of a machine that has both. -/
def Machine.identity? (m : Machine) : Option Identity :=
  match m.metadata.name, m.labels.get? clusterIdLabel with
  | some name, some clusterId => some ⟨name, clusterId⟩
  | _, _ => none

/-- A machine with a name, a namespace and a cluster, and nothing else. -/
def Machine.bare (name clusterId : String) : Machine where
  metadata := { (default : Kubernetes.Metadata) with
    name := some name
    namespace_ := some "ns"
    labels := some (.ofList [(clusterIdLabel, clusterId)]) }
  spec := ⟨none, none⟩
  status := none

theorem Machine.identity?_bare (name clusterId : String) :
    (bare name clusterId).identity? = some ⟨name, clusterId⟩ := rfl

/-- What a machine lacks is never a second server. -/
theorem essentials_early (m : Machine) :
    Ends (fun parts => m.identity? = some parts.2.1) Error.Early m.essentials := by
  unfold Machine.essentials Machine.identity?
  cases m.metadata.name with
  | none => trivial
  | some name =>
    cases m.metadata.namespace_ with
    | none => trivial
    | some space =>
      cases m.labels.get? clusterIdLabel with
      | none => trivial
      | some clusterId =>
        cases ProviderSpec.ofRaw m.spec.providerValue with
        | error e => trivial
        | ok spec => rfl

theorem identity?_of_essentials {m : Machine} {space : String} {i : Identity} {spec : ProviderSpec}
    (h : m.essentials = .ok (space, i, spec)) : m.identity? = some i := by
  have hends := essentials_early m
  rw [h] at hends
  exact hends

/-- The context says of the machine what its essentials are. -/
theorem context_early (m : Machine) (defaultToken : String) :
    (ExceptT.run (m.context defaultToken)).Only Call.Reads (Ends (fun ctx => ctx.machine = m ∧
      m.essentials = .ok (ctx.space, ctx.identity, ctx.spec)) Error.Early) := by
  have hparts : Ends (fun parts => m.essentials = .ok parts) Error.Early m.essentials := by
    have hends := essentials_early m
    cases hm : m.essentials with
    | ok parts => rfl
    | error e => rw [hm] at hends; exact hends
  refine Attempt.only_bind (Attempt.only_ofExcept hparts) fun parts hparts => ?_
  exact Attempt.only_bind (resolveToken_early ..) fun token _ => ⟨rfl, hparts⟩

/-- The context names the machine and what its essentials say of it. -/
theorem context_only (m : Machine) (defaultToken : String) :
    (ExceptT.run (m.context defaultToken)).Only Call.Reads
      (Ends (fun ctx => ctx.machine = m ∧ m.identity? = some ctx.identity) Error.Plain) :=
  (context_early m defaultToken).mono (fun _ => id) fun r hr =>
    Ends.plain _ (Ends.imp (fun _ hctx => ⟨hctx.1, identity?_of_essentials hctx.2⟩) r hr)

theorem begin_early (a : Actuator) (m : Machine) :
    (ExceptT.run (a.begin m)).Only Call.Reads (Ends (fun ctx => ctx.machine = m ∧
      m.essentials = .ok (ctx.space, ctx.identity, ctx.spec)) Error.Early) := by
  refine Attempt.only_bind (context_early m a.defaultToken) fun ctx hctx => ?_
  exact Attempt.only_bind (Attempt.client_early ctx.token) fun _ _ => hctx

theorem begin_essentials (a : Actuator) (m : Machine) :
    (ExceptT.run (a.begin m)).Only Call.Reads (Ends (fun ctx => ctx.machine = m ∧
      m.essentials = .ok (ctx.space, ctx.identity, ctx.spec)) Error.Plain) :=
  (begin_early a m).mono (fun _ => id) Ends.plain

theorem begin_only (a : Actuator) (m : Machine) :
    (ExceptT.run (a.begin m)).Only Call.Reads
      (Ends (fun ctx => ctx.machine = m ∧ m.identity? = some ctx.identity) Error.Plain) :=
  (begin_essentials a m).mono (fun _ => id)
    (Ends.imp fun _ hctx => ⟨hctx.1, identity?_of_essentials hctx.2⟩)

theorem locate_only (i : Identity) {calls : Call → Prop}
    (hlist : calls (.cloud (.listServers (some i.lookupFilter)))) :
    (ExceptT.run i.locate).Only calls fun _ => True := by
  refine ⟨hlist, fun r _ => ?_⟩
  cases (r : Except Cloud.Error (List Cloud.Server)) with
  | error e => trivial
  | ok candidates =>
    change (ExceptT.run (Attempt.ofExcept (i.resolve candidates))).Only calls _
    rw [Attempt.run_ofExcept]
    trivial

theorem selectedSecrets_early (space : String) (selector : Option Kubernetes.LabelSelector) :
    (ExceptT.run (selectedSecrets space selector)).Only Call.Reads
      (Ends (fun _ => True) Error.Early) := by
  cases selector with
  | none => trivial
  | some selector =>
    have htext : Ends (fun _ => True) Error.Early (selectorText selector) := by
      unfold selectorText
      cases selector.text with
      | ok text => trivial
      | error operator => trivial
    refine Attempt.only_bind (Attempt.only_ofExcept htext) fun text _ => ?_
    exact Attempt.control_early (c := .listSecrets space text) trivial

theorem loadUserData_early (m : Machine) (space : String) (spec : ProviderSpec) :
    (ExceptT.run (loadUserData m space spec)).Only Call.Reads
      (Ends (fun _ => True) Error.Early) := by
  unfold loadUserData
  cases spec.userDataSecret with
  | none => trivial
  | some reference =>
    refine Attempt.only_bind (requireSecret_early ..) fun secret _ => ?_
    refine Attempt.only_bind (requireKey_early ..) fun source _ => ?_
    split
    · trivial
    · refine Attempt.only_bind (selectedSecrets_early ..) fun secrets _ => ?_
      refine Attempt.only_ofExcept ?_
      cases renderTemplate source _ with
      | ok text => trivial
      | error e => trivial

theorem loadUserData_only (m : Machine) (space : String) (spec : ProviderSpec) :
    (ExceptT.run (loadUserData m space spec)).Only Call.Reads
      (Ends (fun _ => True) Error.Plain) :=
  (loadUserData_early m space spec).mono (fun _ => id) Ends.plain

/-- Calls that the choice of a server group is made of. -/
def Call.Groups : Call → Prop
  | .cloud (.listGroups _) | .cloud (.createGroup _) => True
  | _ => False

theorem Call.Groups.aside {c : Call} (h : c.Groups) : c.Aside := by
  unfold Call.Groups at h
  split at h <;> trivial

theorem allocateGroup_early (zone key : String) :
    (ExceptT.run (allocateGroup zone key)).Only Call.Groups (Ends (fun _ => True) Error.Early) := by
  refine Attempt.only_bind
    (Attempt.cloud_early (c := .listGroups (some ⟨antiAffinityTag, key⟩)) trivial)
    fun groups _ => ?_
  split
  · trivial
  · exact Attempt.only_bind
      (Attempt.cloud_early (c := .createGroup (groupRequest zone key)) trivial)
      fun _ _ => trivial

theorem groups_early (ctx : MachineContext) :
    (ExceptT.run ctx.groups).Only Call.Groups (Ends (fun _ => True) Error.Early) := by
  unfold MachineContext.groups
  split
  · trivial
  · exact Attempt.only_bind (allocateGroup_early ..) fun _ _ => trivial

theorem groups_only (ctx : MachineContext) :
    (ExceptT.run ctx.groups).Only Call.Aside (Ends (fun _ => True) Error.Plain) :=
  (groups_early ctx).mono (fun _ => Call.Groups.aside) Ends.plain

theorem recordStatus_only {space name : String} {status : Option Json} {calls : Call → Prop} :
    (∀ patch, status = some patch → calls (.control (.patchMachineStatus space name patch))) →
    (ExceptT.run (match status with
      | some patch => Attempt.control (.patchMachineStatus space name patch)
      | none => pure () : Attempt Unit)).Only calls (Ends (fun _ => True) Error.Plain) := by
  intro hstatus
  cases status with
  | none => trivial
  | some patch => exact Attempt.control_only (hstatus patch rfl)

/-- Recording a server makes no calls but those for its two patches. -/
theorem recordServer_only {ctx : MachineContext} {x : Cloud.Server} {calls : Call → Prop}
    (hmain : ∀ patch, (ctx.machine.patches (ctx.machine.withServer x)).1 = some patch →
      calls (.control (.patchMachine ctx.space ctx.identity.name patch)))
    (hstatus : ∀ patch, (ctx.machine.patches (ctx.machine.withServer x)).2 = some patch →
      calls (.control (.patchMachineStatus ctx.space ctx.identity.name patch))) :
    (ExceptT.run (ctx.recordServer x)).Only calls (Ends (fun _ => True) Error.Plain) := by
  unfold MachineContext.recordServer
  cases hp : ctx.machine.patches (ctx.machine.withServer x) with
  | mk main status =>
    rw [hp] at hmain hstatus
    cases main with
    | none => exact recordStatus_only hstatus
    | some patch =>
      exact Attempt.only_bind (Attempt.control_only (hmain patch rfl)) fun _ _ =>
        recordStatus_only hstatus

/-- Calls that the tagging of a root volume is made of. -/
def Call.Tags : Call → Prop
  | .cloud (.getServer _) | .cloud (.updateVolume _ _) | .sleep _ | .draw _ => True
  | _ => False

theorem Call.Tags.aside {c : Call} (h : c.Tags) : c.Aside := by
  unfold Call.Tags at h
  split at h <;> trivial

theorem tryTag_only (uuid : String) (tags : Cloud.Tags) :
    (tryTag uuid tags).Only Call.Tags fun _ => True := by
  unfold tryTag
  refine Program.Only.bind ⟨trivial, fun found _ => ?_⟩
  simp only [Program.Only]
  split
  · trivial
  · split
    · trivial
    · split
      · trivial
      · refine Program.Only.bind ⟨trivial, fun updated _ => ?_⟩
        simp only [Program.Only]
        split <;> trivial

theorem draw_only (schedule : Backoff) : schedule.draw.Only Call.Tags fun _ => True := by
  unfold Backoff.draw
  split
  · trivial
  · split
    · trivial
    · exact ⟨trivial, fun _ _ => trivial⟩

theorem tagAttempts_only (uuid : String) (tags : Cloud.Tags) (attempts left : Nat)
    (schedule : Backoff) :
    (tagAttempts uuid tags attempts left schedule).Only Call.Tags fun _ => True := by
  induction left generalizing schedule with
  | zero =>
    unfold tagAttempts
    refine Program.Only.bind ((tryTag_only uuid tags).mono (fun _ => id) fun r _ => ?_)
    cases r <;> trivial
  | succ left ih =>
    unfold tagAttempts
    refine Program.Only.bind ((tryTag_only uuid tags).mono (fun _ => id) fun r _ => ?_)
    cases r with
    | ok _ => trivial
    | error e =>
      refine Program.Only.bind ((draw_only schedule).mono (fun _ => id) fun drawn _ => ?_)
      cases drawn with
      | none => trivial
      | some next => exact ⟨trivial, fun _ _ => ih next.2⟩

theorem tagVolume_only (ctx : MachineContext) (server : Cloud.Server) (schedule : Backoff) :
    (ExceptT.run (ctx.tagVolume server schedule)).Only Call.Tags
      (Ends (fun _ => True) Error.Plain) := by
  unfold MachineContext.tagVolume
  split
  · trivial
  · refine Program.Only.bind ((tagAttempts_only ..).mono (fun _ => id) fun r _ => ?_)
    cases r with
    | ok _ => trivial
    | error e => cases e <;> rintro _ _ _ ⟨⟩

theorem checkDrift_ends (ctx : MachineContext) (server : Cloud.Server) :
    Ends (fun _ => True) Error.Plain (ctx.checkDrift server) := by
  unfold MachineContext.checkDrift
  by_cases hzone : ctx.spec.zone.isEmpty ∨ ctx.spec.zone = server.zone.slug
  · by_cases hflavor : ctx.spec.flavor.isEmpty ∨ ctx.spec.flavor = server.flavor.slug
    · simp only [hzone, hflavor, bind, Except.bind, if_true]
      trivial
    · simp only [hzone, hflavor, bind, Except.bind, if_true, if_false]
      rintro _ _ _ ⟨⟩
  · simp only [hzone, bind, Except.bind, if_false]
    rintro _ _ _ ⟨⟩

end MachineProvider
