import MachineProvider.Proofs.Actuator.Calls
import MachineProvider.Proofs.Cloud.Bearers
import MachineProvider.Proofs.Program.Fleet

/-! Outlines of a pass: what is known at each point of it, and what to show of the
calls that matter. -/
namespace MachineProvider

open Cloud (Server)
open Attempt (Ends)

variable {World : Type}

/-- Something a pass can know: others cannot make it false, nor can the pass with a call that
touches neither servers nor stored objects. -/
structure Known (answers : World → (c : Call) → c.Answer → World → Prop) (P : Protocol World) where
  holds : World → Prop
  rely : ∀ {u v}, P.rely u v → holds u → holds v
  aside : ∀ {u c r v}, c.Aside → answers u c r v → holds u → P.step u c v ∧ holds v

instance {answers : World → (c : Call) → c.Answer → World → Prop} {P : Protocol World} :
    CoeFun (Known answers P) fun _ => World → Prop := ⟨Known.holds⟩

/-- Whether an answer is no failure. -/
def Call.Succeeds (c : Call) (r : c.Answer) : Prop :=
  match c, r with
  | .client _, r => ∃ a, (r : Except Cloud.Error Unit) = .ok a
  | .cloud c, r => ∃ a, (r : Except Cloud.Error c.Result) = .ok a
  | .control c, r => ∃ a, (r : Except Error c.Result) = .ok a
  | .sleep _, _ => True
  | .draw _, _ => True

/-- A call that keeps to the protocol and, when it succeeds, leaves something known. -/
def Call.Leads {answers : World → (c : Call) → c.Answer → World → Prop} {P : Protocol World}
    (c : Call) (before after : Known answers P) : Prop :=
  ∀ u r v, before u → answers u c r v → P.step u c v ∧ (c.Succeeds r → after v)

/-- A lookup that keeps to the protocol and finds nothing, a server, or something to fail with. -/
def Identity.Finds {answers : World → (c : Call) → c.Answer → World → Prop} {P : Protocol World}
    (i : Identity) (before absent : Known answers P) (present : Server → Known answers P)
    (bad : Error → Prop) : Prop :=
  ∀ u r v, before u → answers u (.cloud (.listServers (some i.lookupFilter))) r v →
    P.step u (.cloud (.listServers (some i.lookupFilter))) v ∧
      ∀ candidates, (r : Except Cloud.Error (List Server)) = .ok candidates →
        match i.resolve candidates with
        | .ok none => absent v
        | .ok (some x) => present x v
        | .error e => bad e

/-- The outline of creating a server and recording it. -/
structure Creating (answers : World → (c : Call) → c.Answer → World → Prop) (P : Protocol World)
    (m : Machine) (bad : Error → Prop) where
  absent : Known answers P
  present : Known answers P
  recorded : Server → Known answers P
  settled : Known answers P
  honest : ∀ {u c r v}, answers u c r v → c.Honest r
  plain : ∀ {e : Error}, e.Plain → bad e
  create : ∀ i request, m.identity? = some i → i.carriedBy request.tags = true →
    (Call.cloud (.createServer request)).Leads absent present
  main : ∀ x space name patch, (m.patches (m.withServer x)).1 = some patch →
    (Call.control (.patchMachine space name patch)).Leads present (recorded x)
  noMain : ∀ x u, (m.patches (m.withServer x)).1 = none → present u → recorded x u
  status : ∀ x space name patch, (m.patches (m.withServer x)).2 = some patch →
    (Call.control (.patchMachineStatus space name patch)).Leads (recorded x) settled
  noStatus : ∀ x u, (m.patches (m.withServer x)).2 = none → recorded x u → settled u

/-- The outline of a pass over a machine that is not deleted. A server that was seen is looked for
once more before it is recorded. -/
structure Converging (answers : World → (c : Call) → c.Answer → World → Prop) (P : Protocol World)
    (m : Machine) (bad : Error → Prop) extends Creating answers P m bad where
  fresh : Known answers P
  marked : Known answers P
  seen : Known answers P
  mark : ∀ space name, m.hasFinalizer = false →
    (Call.control (.patchMachine space name
      (finalizersPatch (m.finalizers ++ [machineFinalizer])))).Leads fresh marked
  already : ∀ u, m.hasFinalizer = true → fresh u → marked u
  look : ∀ i, m.identity? = some i → i.Finds marked absent (fun _ => seen) bad
  again : ∀ u, seen u → marked u
  found : ∀ u, seen u → present u

/-- The outline of a pass over a deleted machine. -/
structure Releasing (answers : World → (c : Call) → c.Answer → World → Prop) (P : Protocol World)
    (m : Machine) (bad : Error → Prop) where
  bound : Known answers P
  found : Server → Known answers P
  free : Known answers P
  released : Known answers P
  honest : ∀ {u c r v}, answers u c r v → c.Honest r
  plain : ∀ {e : Error}, e.Plain → bad e
  look : ∀ i, m.identity? = some i → i.Finds bound free found bad
  remove : ∀ x : Server, (Call.cloud (.deleteServer x.uuid)).Leads (found x) free
  unmark : ∀ space name, (Call.control (.patchMachine space name
    (finalizersPatch (m.finalizers.filter (· ≠ machineFinalizer))))).Leads free released
  bare : ∀ u, m.hasFinalizer = false → bound u → released u

section Parts

variable {answers : World → (c : Call) → c.Answer → World → Prop} {P : Protocol World}
  {bad : Error → Prop} {A B : Known answers P} {w : World}

/-- After a good result something is known, and a failure is of a kind. -/
def Leaves {α : Type} (good : α → World → Prop) (bad : Error → Prop) : Except Error α → World → Prop
  | .ok a, w => good a w
  | .error e, _ => bad e

/-- Whatever is known outlasts a program that touches neither servers nor stored objects. -/
theorem Known.keeps {α : Type} (A : Known answers P)
    (honest : ∀ {u c r v}, answers u c r v → c.Honest r) (plain : ∀ {e : Error}, e.Plain → bad e)
    {x : Attempt α} {good : α → Prop} (h : (ExceptT.run x).Only Call.Aside (Ends good Error.Plain))
    (hw : A w) :
    (ExceptT.run x).Keeps answers P (Leaves (fun a u => good a ∧ A u) bad) w := by
  have hkeeps := h.keeps (fun u v => A.rely)
    (fun u c r v hu hc hr => ⟨honest hr, A.aside hc hr hu⟩) hw
  refine hkeeps.mono fun r u ⟨hr, hu⟩ => ?_
  cases r with
  | ok a => exact ⟨hr, hu⟩
  | error e => exact plain hr

theorem control_keeps {c : ControlCall} (honest : ∀ {u c r v}, answers u c r v → c.Honest r)
    (plain : ∀ {e : Error}, e.Plain → bad e) (h : (Call.control c).Leads A B) (hw : A w) :
    (ExceptT.run (Attempt.control c)).Keeps answers P (Leaves (fun _ => B) bad) w := by
  intro u hu r v hr
  obtain ⟨hstep, hafter⟩ := h u r v (A.rely hu hw) hr
  refine ⟨hstep, fun v' hv' => ?_⟩
  have hhonest := honest hr
  cases (r : Except Error c.Result) with
  | ok a => exact B.rely hv' (hafter ⟨a, rfl⟩)
  | error e => exact plain (hhonest e rfl).plain

/-- A provider call whose failure is turned into one of the attempt. -/
theorem cloud_mapError_keeps {c : Cloud.Call} {f : Cloud.Error → Error} (failed : ∀ e, bad (f e))
    (h : (Call.cloud c).Leads A B) (hw : A w) :
    (ExceptT.run (ExceptT.mk do
      let answer : Except Cloud.Error c.Result ← Program.perform (.cloud c)
      return answer.mapError f : Attempt c.Result)).Keeps answers P
        (Leaves (fun _ => B) bad) w := by
  intro u hu r v hr
  obtain ⟨hstep, hafter⟩ := h u r v (A.rely hu hw) hr
  refine ⟨hstep, fun v' hv' => ?_⟩
  cases (r : Except Cloud.Error c.Result) with
  | ok a => exact B.rely hv' (hafter ⟨a, rfl⟩)
  | error e => exact failed e

theorem cloud_keeps {c : Cloud.Call} (plain : ∀ {e : Error}, e.Plain → bad e)
    (h : (Call.cloud c).Leads A B) (hw : A w) :
    (ExceptT.run (Attempt.cloud c)).Keeps answers P (Leaves (fun _ => B) bad) w :=
  cloud_mapError_keeps (fun _ => plain (by rintro _ _ _ ⟨⟩)) h hw

theorem createServer_keeps (ctx : MachineContext) {request : Cloud.ServerRequest}
    (plain : ∀ {e : Error}, e.Plain → bad e) (h : (Call.cloud (.createServer request)).Leads A B)
    (hw : A w) :
    (ExceptT.run (ctx.createServer request)).Keeps answers P (Leaves (fun _ => B) bad) w :=
  cloud_mapError_keeps (fun _ => plain (by rintro _ _ _ ⟨⟩)) h hw

theorem locate_keeps {i : Identity} {present : Server → Known answers P}
    (plain : ∀ {e : Error}, e.Plain → bad e) (h : i.Finds A B present bad) (hw : A w) :
    (ExceptT.run i.locate).Keeps answers P
      (Leaves (fun o u => match o with
        | none => B u
        | some x => present x u) bad) w := by
  intro u hu r v hr
  obtain ⟨hstep, hfound⟩ := h u r v (A.rely hu hw) hr
  refine ⟨hstep, ?_⟩
  cases (r : Except Cloud.Error (List Server)) with
  | error e => exact fun v' hv' => plain (by rintro _ _ _ ⟨⟩)
  | ok candidates =>
    have hcase := hfound candidates rfl
    change (ExceptT.run (Attempt.ofExcept (i.resolve candidates))).Keeps answers P _ v
    rw [Attempt.run_ofExcept]
    intro v' hv'
    cases hr : i.resolve candidates with
    | error e => rw [hr] at hcase; exact hcase
    | ok o =>
      rw [hr] at hcase
      cases o with
      | none => exact B.rely hv' hcase
      | some x => exact (present x).rely hv' hcase

/-- What follows a good result decides, and a failure is the last word. -/
theorem keeps_bind {α β : Type} {x : Attempt α} {f : α → Attempt β} {mid : α → World → Prop}
    {good : β → World → Prop} (hx : (ExceptT.run x).Keeps answers P (Leaves mid bad) w)
    (hf : ∀ a u, mid a u → (ExceptT.run (f a)).Keeps answers P (Leaves good bad) u) :
    (ExceptT.run (x >>= f)).Keeps answers P (Leaves good bad) w :=
  hx.bind_attempt hf fun _ _ _ he _ => he

end Parts

namespace Creating

variable {answers : World → (c : Call) → c.Answer → World → Prop} {P : Protocol World}
  {m : Machine} {bad : Error → Prop} {w : World}

theorem begin_keeps (O : Creating answers P m bad) (a : Actuator) {A : Known answers P}
    (hw : A w) :
    (ExceptT.run (a.begin m)).Keeps answers P
      (Leaves (fun ctx u => (ctx.machine = m ∧ m.identity? = some ctx.identity) ∧ A u) bad) w :=
  A.keeps O.honest O.plain ((begin_only a m).mono (fun _ => Call.Reads.aside) fun _ => id) hw

theorem recordStatus_keeps (O : Creating answers P m bad) (x : Server) {status : Option Json}
    {space name : String} : (m.patches (m.withServer x)).2 = status → O.recorded x w →
    (ExceptT.run (match status with
      | some patch => Attempt.control (.patchMachineStatus space name patch)
      | none => pure () : Attempt Unit)).Keeps answers P (Leaves (fun _ => O.settled) bad) w := by
  intro hp hw
  cases status with
  | none => exact fun v hv => O.settled.rely hv (O.noStatus x w hp hw)
  | some patch => exact control_keeps O.honest O.plain (O.status x _ _ patch hp) hw

theorem recordServer_keeps (O : Creating answers P m bad) {ctx : MachineContext}
    (hctx : ctx.machine = m) (x : Server) (hw : O.present w) :
    (ExceptT.run (ctx.recordServer x)).Keeps answers P (Leaves (fun _ => O.settled) bad) w := by
  unfold MachineContext.recordServer
  rw [hctx]
  cases hp : m.patches (m.withServer x) with
  | mk main status =>
    have hmain : (m.patches (m.withServer x)).1 = main := congrArg Prod.fst hp
    have hstatus : (m.patches (m.withServer x)).2 = status := congrArg Prod.snd hp
    cases main with
    | none => exact O.recordStatus_keeps x hstatus (O.noMain x w hmain hw)
    | some patch =>
      have hsent := O.main x ctx.space ctx.identity.name patch hmain
      refine keeps_bind (control_keeps O.honest O.plain hsent hw) fun _ u hu => ?_
      exact O.recordStatus_keeps x hstatus hu

theorem create_keeps (O : Creating answers P m bad) (a : Actuator) (hw : O.absent w) :
    (ExceptT.run (a.create m)).Keeps answers P (Leaves (fun _ => O.settled) bad) w := by
  refine keeps_bind (O.begin_keeps a hw) fun ctx u hu => ?_
  obtain ⟨⟨hctx, hi⟩, hu⟩ := hu
  refine keeps_bind (O.absent.keeps O.honest O.plain
    ((loadUserData_only ..).mono (fun _ => Call.Reads.aside) fun _ => id) hu)
      fun userData u hu => ?_
  refine keeps_bind (O.absent.keeps O.honest O.plain (groups_only ctx) hu.2) fun groups u hu => ?_
  have htags : ctx.identity.carriedBy (ctx.serverRequest groups userData).tags = true :=
    ctx.identity.carriedBy_union ctx.spec.tags
  refine keeps_bind (createServer_keeps ctx O.plain (O.create _ _ hi htags) hu.2) fun x u hu => ?_
  refine keeps_bind (O.recordServer_keeps hctx x hu) fun _ u hu => ?_
  have htagged := O.settled.keeps O.honest O.plain
    ((tagVolume_only ctx x a.taggingBackoff).mono (fun _ => Call.Tags.aside) fun _ => id) hu
  refine htagged.mono fun r u hr => ?_
  cases r with
  | ok _ => exact hr.2
  | error e => exact hr

end Creating

namespace Converging

variable {answers : World → (c : Call) → c.Answer → World → Prop} {P : Protocol World}
  {m : Machine} {bad : Error → Prop} {w : World}

theorem exists_keeps (O : Converging answers P m bad) (a : Actuator) (hw : O.marked w) :
    (ExceptT.run (a.exists_ m)).Keeps answers P
      (Leaves (fun known u => if known then O.seen u else O.absent u) bad) w := by
  refine keeps_bind (O.begin_keeps a hw) fun ctx u hu => ?_
  obtain ⟨⟨-, hi⟩, hu⟩ := hu
  refine keeps_bind (locate_keeps O.plain (O.look _ hi) hu) fun o u hu => ?_
  cases o with
  | none => exact fun v hv => O.absent.rely hv hu
  | some x => exact fun v hv => O.seen.rely hv hu

theorem update_keeps (O : Converging answers P m bad) (a : Actuator) (hw : O.marked w) :
    (ExceptT.run (a.update m)).Keeps answers P (Leaves (fun _ => O.settled) bad) w := by
  refine keeps_bind (O.begin_keeps a hw) fun ctx u hu => ?_
  obtain ⟨⟨hctx, hi⟩, hu⟩ := hu
  refine keeps_bind (locate_keeps O.plain (O.look _ hi) hu) fun o u hu => ?_
  cases o with
  | none => exact fun v hv => O.plain (by rintro _ _ _ ⟨⟩)
  | some x =>
    refine keeps_bind (O.recordServer_keeps hctx x (O.found u hu)) fun _ u hu => ?_
    have hdrift := checkDrift_ends ctx x
    rw [Attempt.run_ofExcept]
    intro v hv
    cases hd : ctx.checkDrift x with
    | ok _ => exact O.settled.rely hv hu
    | error e =>
      rw [hd] at hdrift
      exact O.plain hdrift

/-- A pass that follows the outline keeps to the protocol from start to end. -/
theorem converge_keeps (O : Converging answers P m bad) (a : Actuator) (hw : O.fresh w) :
    (ExceptT.run (a.converge m)).Keeps answers P (Leaves (fun _ => O.settled) bad) w := by
  have hrest : ∀ u, O.marked u → (ExceptT.run (do
      if ← a.exists_ m then a.update m else a.create m
      return Action.requeue machineResync : Attempt Action)).Keeps answers P
        (Leaves (fun _ => O.settled) bad) u := by
    intro u hu
    refine keeps_bind (O.exists_keeps a hu) fun known u hu => ?_
    cases known with
    | true =>
      exact keeps_bind (O.update_keeps a (O.again u hu)) fun _ _ hu _ hv => O.settled.rely hv hu
    | false => exact keeps_bind (O.create_keeps a hu) fun _ _ hu _ hv => O.settled.rely hv hu
  unfold Actuator.converge
  cases hm : m.hasFinalizer with
  | true => exact hrest w (O.already w hm hw)
  | false =>
    refine keeps_bind (control_keeps O.honest O.plain (O.mark _ _ hm) hw) fun _ u hu => ?_
    exact hrest u hu

end Converging

namespace Releasing

variable {answers : World → (c : Call) → c.Answer → World → Prop} {P : Protocol World}
  {m : Machine} {bad : Error → Prop} {w : World}

theorem delete_keeps (O : Releasing answers P m bad) (a : Actuator) (hw : O.bound w) :
    (ExceptT.run (a.delete m)).Keeps answers P (Leaves (fun _ => O.free) bad) w := by
  have hbegin := O.bound.keeps O.honest O.plain
    ((begin_only a m).mono (fun _ => Call.Reads.aside) fun _ => id) hw
  refine keeps_bind hbegin fun ctx u hu => ?_
  obtain ⟨⟨-, hi⟩, hu⟩ := hu
  refine keeps_bind (locate_keeps O.plain (O.look _ hi) hu) fun o u hu => ?_
  cases o with
  | none => exact fun v hv => O.free.rely hv hu
  | some x => exact cloud_keeps O.plain (O.remove x) hu

theorem release_keeps (O : Releasing answers P m bad) (a : Actuator) (hw : O.bound w) :
    (ExceptT.run (a.release m)).Keeps answers P (Leaves (fun _ => O.released) bad) w := by
  unfold Actuator.release
  cases hm : m.hasFinalizer with
  | false => exact fun v hv => O.released.rely hv (O.bare w hm hw)
  | true =>
    refine keeps_bind (O.delete_keeps a hw) fun _ u hu => ?_
    refine keeps_bind (control_keeps O.honest O.plain (O.unmark _ _) hu) fun _ u hu v hv => ?_
    exact O.released.rely hv hu

end Releasing

/-- Passes over the machines each index admits, in a world that is a provider. -/
def passes {ι : Type} (a : Actuator) (admits : ι → Machine → Prop) :
    System ι Cloud.Store (Except Error Action) where
  answers := Cloud.Store.Answers
  starts i _ p := ∃ m, admits i m ∧ p = ExceptT.run (a.reconcile m)
  moves _ _ := False

end MachineProvider
