import MachineProvider.Proofs.Reconcile.Worlds
import MachineProvider.Proofs.Simulation.Healed

/-! Runs that go alike in two worlds: what is on record is never looked at, and a group that one
world opens is found in the other. -/
namespace MachineProvider

open Cloud (ServerGroup Store)

/-- Calls that ask for secrets, a client or the servers and change nothing. -/
def Call.Looks : Call → Prop
  | .cloud (.listServers _) => True
  | c => c.Reads

theorem Call.Reads.looks {c : Call} (h : c.Reads) : c.Looks := by
  cases c with
  | cloud d => exact (h.not_cloud d rfl).elim
  | _ => exact h

/-- A look at the servers is the only call to the provider. -/
theorem Call.Looks.cases {c : Call} (h : c.Looks) :
    (∃ filter, c = .cloud (.listServers filter)) ∨ ∀ d, c ≠ .cloud d := by
  cases c with
  | cloud d =>
    cases d with
    | listServers filter => exact .inl ⟨filter, rfl⟩
    | _ => exact h.elim
  | _ => exact .inr (by rintro _ ⟨⟩)

namespace Simulation.World

variable {α : Type} {a : Actuator} {m : Machine} {ctx : MachineContext} {spec : ProviderSpec}
  {w v u : World}

/-- The worlds differ at most in what is on record. -/
structure Alike (w v : World) : Prop extends ReadsAlike w v where
  store : w.store.Untouched v.store

theorem Alike.answer (h : Alike w v) (c : Call) :
    (answer c v).1 = (answer c w).1 ∧ Alike (answer c w).2 (answer c v).2 := by
  have hreads := h.toReadsAlike.answer c
  by_cases hc : ∃ d, c = .cloud d
  · obtain ⟨d, rfl⟩ := hc
    obtain ⟨hresult, hstore⟩ := h.store.answer d
    exact ⟨hresult, hreads, hstore⟩
  · have hc' : ∀ d, c ≠ .cloud d := fun d hd => hc ⟨d, hd⟩
    refine ⟨answer_eq_of_readsAlike hc' h.toReadsAlike, hreads, ?_⟩
    rw [store_answer hc', store_answer hc']
    exact h.store

/-- A program ends alike in alike worlds. -/
theorem Alike.run (h : Alike w v) (p : Program α) :
    (p.run World.answer v).1 = (p.run World.answer w).1 ∧
      Alike (p.run World.answer w).2 (p.run World.answer v).2 :=
  run_related (fun h _ => h.answer _) p.only_true h

/-- The second world has one group more, opened for the payload. -/
structure Ahead (spec : ProviderSpec) (w v : World) : Prop extends ReadsAlike w v where
  store : Opened spec w.store v.store

theorem Ahead.answer (h : Ahead spec w v) {c : Call} (hc : c.Looks) :
    (answer c v).1 = (answer c w).1 ∧ Ahead spec (answer c w).2 (answer c v).2 := by
  have hreads := h.toReadsAlike.answer c
  rcases hc.cases with ⟨filter, rfl⟩ | hc'
  · have hservers : v.store.servers = w.store.servers := h.store.store.servers
    have hfailures : v.store.failures = w.store.failures := h.store.store.failures
    have hfailure : v.store.failure? (Cloud.Call.listServers filter).operation =
        w.store.failure? (Cloud.Call.listServers filter).operation := by
      unfold Store.failure?
      rw [hfailures]
    have hw : w.store.Untouched (World.answer (.cloud (.listServers filter)) w).2.store :=
      Store.Serves.listed_servers .answered
    have hv : v.store.Untouched (World.answer (.cloud (.listServers filter)) v).2.store :=
      Store.Serves.listed_servers .answered
    refine ⟨?_, hreads, h.store.congr hw.symm hv⟩
    change (v.store.answer (.listServers filter)).1 = (w.store.answer (.listServers filter)).1
    cases hf : w.store.failure? (Cloud.Call.listServers filter).operation with
    | some text => rw [Store.answer_failing hf, Store.answer_failing (hfailure.trans hf)]
    | none =>
      rw [Store.answer_working hf, Store.answer_working (hfailure.trans hf)]
      simp [Store.perform, Store.listServers, hservers]
  · refine ⟨answer_eq_of_readsAlike hc' h.toReadsAlike, hreads, ?_⟩
    rw [store_answer hc', store_answer hc']
    exact h.store

/-- A program that only looks does not see the group. -/
theorem Ahead.run {ends : α → Prop} {p : Program α} (h : Ahead spec w v)
    (hp : p.Only Call.Looks ends) :
    (p.run World.answer v).1 = (p.run World.answer w).1 ∧
      Ahead spec (p.run World.answer w).2 (p.run World.answer v).2 :=
  run_related (R := Ahead spec) (fun h hc => h.answer hc) hp h

theorem Ahead.run_ok {ends : Except Error α → Prop} {x : Attempt α} {b : α} (h : Ahead spec w v)
    (hx : (ExceptT.run x).Only Call.Looks ends) (hok : w.run x = (.ok b, u)) :
    ∃ u', v.run x = (.ok b, u') ∧ Ahead spec u u' := by
  obtain ⟨hresult, hafter⟩ := h.run hx
  rw [show (ExceptT.run x).run World.answer w = (.ok b, u) from hok] at hresult hafter
  exact ⟨(v.run x).2, Prod.ext hresult rfl, hafter⟩

section Passes

theorem exists_looks (a : Actuator) (m : Machine) :
    (ExceptT.run (a.exists_ m)).Only Call.Looks fun _ => True := by
  refine Attempt.only_then ((begin_only a m).mono (fun _ => Call.Reads.looks) fun _ => id)
    fun ctx _ => ?_
  exact Attempt.only_then (Attempt.only_any (locate_only ctx.identity trivial)) fun _ _ => trivial

/-- The world with one more call to the provider on record. -/
def logged (w : World) (c : Cloud.Call) : World :=
  { w with store := { w.store with calls := w.store.calls ++ [c] } }

theorem run_listGroups (hw : w.store.failures = []) (filter : Option Cloud.TagFilter) :
    w.run (Attempt.cloud (.listGroups filter)) =
      (.ok (w.store.listGroups filter), w.logged (.listGroups filter)) := by
  rw [run_cloud, Store.answer_working (by simp [Store.failure?, hw])]
  rfl

/-- The world with one more group. -/
def opened (w : World) (request : Cloud.GroupRequest) : World :=
  { w with store := ((w.logged (.createGroup request)).store.createGroup request).2 }

theorem run_createGroup (hw : w.store.failures = []) (request : Cloud.GroupRequest) :
    w.run (Attempt.cloud (.createGroup request)) =
      (.ok (w.store.createGroup request).1, w.opened request) := by
  rw [run_cloud, Store.answer_working (by simp [Store.failure?, hw])]
  rfl

/-- Where one world opens a group, the other finds it. -/
theorem run_allocateGroup_ahead (h : Ahead spec w v) (hworks : w.store.failures = []) :
    ∃ uuid u u', w.run (allocateGroup spec.zone spec.antiAffinityKey) = (.ok uuid, u) ∧
      v.run (allocateGroup spec.zone spec.antiAffinityKey) = (.ok uuid, u') ∧ Alike u u' := by
  let list : Cloud.Call := .listGroups (some ⟨antiAffinityTag, spec.antiAffinityKey⟩)
  let request := groupRequest spec.zone spec.antiAffinityKey
  have hlist := run_listGroups hworks (some ⟨antiAffinityTag, spec.antiAffinityKey⟩)
  have hlist' := run_listGroups (h.store.store.failures.trans hworks)
    (some ⟨antiAffinityTag, spec.antiAffinityKey⟩)
  have hopen := run_createGroup (w := w.logged list) hworks request
  refine ⟨(w.store.createGroup request).1.uuid, (w.logged list).opened request, v.logged list,
    (run_bind_ok hlist).trans ?_, (run_bind_ok hlist').trans ?_, ?_⟩
  · rw [h.store.full]
    exact (run_bind_ok hopen).trans rfl
  · rw [h.store.room]
    rfl
  · obtain ⟨hsecrets, hbroken, hstrict⟩ := h.toReadsAlike
    have hopened : (w.store.createGroup request).2.Untouched
        ((w.logged list).opened request).store :=
      ((Store.Untouched.of_calls ..).perform (.createGroup request)).2
    exact ⟨⟨hsecrets, hbroken, hstrict⟩, (hopened.symm.trans h.store.store).trans (.of_calls ..)⟩

/-- Where one world opens a group, the other finds it, and they go on alike. -/
theorem run_groups_ahead (h : Ahead ctx.spec w v) (hworks : w.store.failures = [])
    {groups : List String} (hok : w.run ctx.groups = (.ok groups, u)) :
    ∃ u', v.run ctx.groups = (.ok groups, u') ∧ Alike u u' := by
  obtain ⟨uuid, t, t', hrun, hrun', halike⟩ := run_allocateGroup_ahead h hworks
  unfold MachineContext.groups at hok ⊢
  rw [h.store.keyed] at hok ⊢
  have hdone : (Except.ok (ctx.spec.serverGroups ++ [uuid]), t) = (.ok groups, u) :=
    (run_bind_ok hrun).symm.trans hok
  obtain ⟨hgroups, rfl⟩ := Prod.mk.inj hdone
  exact ⟨t', (run_bind_ok hrun').trans (congrArg (·, t') hgroups), halike⟩

variable {space : String} {i : Identity} (hm : m.essentials = .ok (space, i, spec))
  (h : Ahead spec w v) (hworks : w.store.failures = [])
include hm h hworks

theorem run_create_ahead (hok : (w.run (a.create m)).1 = .ok ()) :
    (v.run (a.create m)).1 = .ok () := by
  obtain ⟨ctx, w₁, hbegin, hbegun⟩ := ok_of_run_bind hok
  obtain ⟨userData, w₂, hload, hloaded⟩ := ok_of_run_bind hbegun
  obtain ⟨groups, w₃, hgroups, hserve⟩ := ok_of_run_bind hloaded
  -- The first two parts only look, so that the worlds come to the groups as they were.
  obtain ⟨v₁, hbegin', h₁⟩ :=
    h.run_ok ((begin_only a m).mono (fun _ => Call.Reads.looks) fun _ => id) hbegin
  obtain ⟨v₂, hload', h₂⟩ := h₁.run_ok ((loadUserData_only ..).mono (fun _ => Call.Reads.looks)
    fun _ => id) hload
  obtain ⟨hspec, hworks₂⟩ : spec = ctx.spec ∧ w₂.store.failures = [] := by
    have hends := ends_run (w := w) (begin_essentials a m)
    have hstore₁ := store_run_of_reads (w := w) (begin_only a m)
    have hstore₂ := store_run_of_reads (w := w₁) (loadUserData_only m ctx.space ctx.spec)
    rw [show (ExceptT.run (a.begin m)).run answer w = _ from hbegin] at hends hstore₁
    rw [show (ExceptT.run (loadUserData m ctx.space ctx.spec)).run answer w₁ = _ from hload]
      at hstore₂
    exact ⟨(Prod.mk.inj (Prod.mk.inj (Except.ok.inj (hm.symm.trans hends.2))).2).2,
      by rw [hstore₂, hstore₁, hworks]⟩
  subst hspec
  obtain ⟨v₃, hgroups', halike⟩ := run_groups_ahead h₂ hworks₂ hgroups
  refine (congrArg Prod.fst (run_bind_ok hbegin')).trans ?_
  refine (congrArg Prod.fst (run_bind_ok hload')).trans ?_
  exact (congrArg Prod.fst (run_bind_ok hgroups')).trans ((halike.run _).1.trans hserve)

/-- A pass that found no server and opened a group would also have succeeded with the
group there. -/
theorem run_converge_ahead (hcluster : i.clusterId ≠ "") (hnone : w.store.bearers i = [])
    (hf : m.hasFinalizer = true) {action : Action} (hok : (w.run (a.converge m)).1 = .ok action) :
    (v.run (a.converge m)).1 = .ok action := by
  unfold Actuator.converge at hok ⊢
  rw [hf] at hok ⊢
  obtain ⟨known, w₁, hexists, hcreate⟩ := ok_of_run_bind hok
  obtain ⟨v₁, hexists', h₁⟩ := h.run_ok (exists_looks a m) hexists
  obtain ⟨sent, -, hends⟩ := w.canEnd_cluster (a.exists_ m) .null
  rw [hexists] at hends
  obtain ⟨⟨-, huntouched⟩, hfound⟩ := exists_ends (identity?_of_essentials hm) hcluster hends
  obtain ⟨o, ho, rfl⟩ := hfound _ rfl
  obtain rfl : o = none := by
    rw [show _ = [] from hnone] at ho
    cases o with
    | none => rfl
    | some x => cases ho
  obtain ⟨_, w₂, hcreated, hdone⟩ := ok_of_run_bind hcreate
  have hworks₁ : w₁.store.failures = [] := huntouched.failures.trans hworks
  have hcreated' := run_create_ahead hm h₁ hworks₁ (congrArg Prod.fst hcreated)
  refine (congrArg Prod.fst (run_bind_ok hexists')).trans ?_
  exact (congrArg Prod.fst (run_bind_ok (Prod.ext hcreated' rfl))).trans hdone

end Passes

end Simulation.World

end MachineProvider
