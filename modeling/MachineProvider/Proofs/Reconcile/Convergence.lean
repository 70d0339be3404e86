import Mathlib.Logic.Function.Iterate
import MachineProvider.Proofs.Reconcile.Worlds
import MachineProvider.Proofs.Simulation.Healed

/-! One successful pass is enough: the machine then shows its only server, and further
passes only look. -/
namespace MachineProvider

open Cloud (Server Store)
open Simulation (World)

variable {a : Actuator} {m : Machine} {i : Identity} {x : Server} {k l : Cluster} {doc doc' : Json}
  {w u v : World} {action : Action}

section Documents

theorem Machine.StoredIn.marked (h : m.StoredIn doc) : m.marked.StoredIn (m.markedIn doc) := by
  unfold Machine.marked Machine.markedIn
  split
  · exact h
  · exact h.mergeFinalizers _

theorem Machine.StoredIn.recorded (h : m.marked.StoredIn doc) (x : Server) :
    (m.marked.withServer x).StoredIn (m.recordedIn (m.withServer x) doc) := by
  obtain ⟨finalizers, hm⟩ := m.marked_rest
  rw [hm] at h ⊢
  have hmain := h.mergeMain (show m.metadata.labels = _ from rfl) rfl x
  exact hmain.mergeStatus (show m.status = _ from rfl) x

/-- However far recording a server has come, the same server is still to be shown. -/
theorem Machine.Recording.stored (hr : m.Recording (m.withServer x) doc doc')
    (h : m.marked.StoredIn doc) :
    ∃ n : Machine, n.StoredIn doc' ∧ n.hasFinalizer = true ∧
      n.withServer x = m.marked.withServer x := by
  cases hr with
  | begun => exact ⟨_, h, m.hasFinalizer_marked, rfl⟩
  | whole => exact ⟨_, h.recorded x, m.hasFinalizer_marked, m.marked.withServer_withServer x⟩
  | main =>
    have hfinalizer := m.hasFinalizer_marked
    rw [← m.marked.withServer_withServer x]
    obtain ⟨finalizers, hm⟩ := m.marked_rest
    rw [hm] at h hfinalizer ⊢
    exact ⟨_, h.mergeMain (show m.metadata.labels = _ from rfl) rfl x, hfinalizer, rfl⟩

end Documents

section FirstPass

/-- A server made for a payload is what the payload asks for. -/
theorem fits_newborn {spec : ProviderSpec} {s : Store} {request : Cloud.ServerRequest}
    (hzone : request.zone = spec.zone) (hflavor : request.flavor = spec.flavor) :
    spec.Fits (s.newborn request) := ⟨.inr hzone.symm, .inr hflavor.symm⟩

/-- After a created server the identity has one more than before. -/
theorem bearers_of_created {s t : Store} {request : Cloud.ServerRequest}
    (htags : i.carriedBy request.tags = true)
    (h : (s.createServer request).2.Tagged (s.newborn request).uuid t) :
    t.bearers i = s.bearers i ++ [s.newborn request] := by
  have hservers : t.servers = s.servers ++ [s.newborn request] := h.servers
  rw [Store.bearers_append (i := i) hservers htags i, if_pos rfl]

/-- A pass that succeeds leaves one server, which fits the payload, and the machine
that shows it. -/
theorem Converges.settled {r : Except Error Action} (h : Converges m i k r l)
    (hstored : m.StoredIn k.document) (hok : r = .ok action) :
    action = .requeue machineResync ∧ ∃ x space spec, l.store.bearers i = [x] ∧
      (m.marked.withServer x).StoredIn l.document ∧ m.essentials = .ok (space, i, spec) ∧
      spec.Fits x := by
  cases h with
  | stopped _ _ => cases hok
  | @updated r l x space spec hm hx hstore _ hwhole =>
    cases r with
    | error e => cases hok
    | ok _ =>
      obtain ⟨hdoc, hfits⟩ := hwhole rfl
      refine ⟨(Except.ok.inj hok).symm, x, space, spec, (hstore.bearers i).trans hx, ?_, hm, hfits⟩
      exact hdoc ▸ hstored.marked.recorded x
  | @created r v l hdocument hstore hnone hcreate =>
    cases hcreate with
    | stopped _ => cases hok
    | opened _ _ _ => cases hok
    | @created r l space spec s request hm hgrouped htags hzone hflavor htagged _ hwhole =>
      cases r with
      | error e => cases hok
      | ok _ =>
        have hbearers : l.store.bearers i = [s.newborn request] := by
          rw [bearers_of_created htags htagged, Store.bearers_congr hgrouped.kept.1,
            hstore.bearers i, hnone]
          rfl
        refine ⟨(Except.ok.inj hok).symm, _, space, spec, hbearers, ?_, hm,
          fits_newborn hzone hflavor⟩
        rw [hwhole rfl, hdocument]
        exact hstored.marked.recorded _

/-- A pass that succeeds began with the context of the machine. -/
theorem begin_of_converge (h : (w.run (a.converge m)).1 = .ok action) :
    ∃ ctx, (w.run (a.begin m)).1 = .ok ctx ∧
      m.essentials = .ok (ctx.space, ctx.identity, ctx.spec) := by
  have hexists : ∃ u : World, World.ReadsAlike w u ∧
      ∃ known, (u.run (a.exists_ m)).1 = .ok known := by
    unfold Actuator.converge at h
    cases hf : m.hasFinalizer with
    | true =>
      rw [hf] at h
      obtain ⟨known, u, hknown, -⟩ := World.ok_of_run_bind h
      exact ⟨w, ⟨rfl, rfl, rfl⟩, known, congrArg Prod.fst hknown⟩
    | false =>
      rw [hf] at h
      obtain ⟨_, u, hmark, hrest⟩ := World.ok_of_run_bind h
      obtain ⟨known, _, hknown, -⟩ := World.ok_of_run_bind hrest
      obtain rfl : (w.run _).2 = u := congrArg Prod.snd hmark
      exact ⟨_, World.readsAlike_run _ w, known, congrArg Prod.fst hknown⟩
  obtain ⟨u, halike, known, hknown⟩ := hexists
  obtain ⟨ctx, _, hbegin, -⟩ := World.ok_of_run_bind hknown
  have hw : (w.run (a.begin m)).1 = .ok ctx :=
    (World.run_eq_of_reads (begin_only a m) halike).symm.trans (congrArg Prod.fst hbegin)
  have hends := World.ends_run (w := w) (begin_essentials a m)
  change Attempt.Ends _ _ (w.run (a.begin m)).1 at hends
  rw [hw] at hends
  exact ⟨ctx, hw, hends.2⟩

end FirstPass

section FurtherPasses

/-- The world a pass left behind, with nothing set to fail any more; the record of calls is free. -/
structure Simulation.World.Resumed (u v : World) : Prop where
  secrets : v.secrets = u.secrets
  strictTokens : v.strictTokens = u.strictTokens
  broken : v.broken = []
  store : { u.store with failures := [] }.Untouched v.store

theorem Simulation.World.looked_looked (v : World) (ctx : MachineContext) (b c d e : Nat) :
    (v.looked ctx b c).looked ctx d e = v.looked ctx (b + d) (c + e) := by
  simp [World.looked, ← List.replicate_append_replicate]

theorem Simulation.World.resumed_self (hbroken : u.broken = [])
    (hfailures : u.store.failures = []) :
    u.Resumed u := ⟨rfl, rfl, hbroken, ⟨rfl, rfl, rfl, rfl, rfl, hfailures, rfl⟩⟩

/-- If every pass only looks twice, so many passes look twice as often. -/
theorem iterate_looked {ctx : MachineContext} {p : Attempt Action}
    (h : ∀ b c, ((v.looked ctx b c).run p).2 = (v.looked ctx b c).looked ctx 2 2) (n : Nat) :
    (fun v => (World.run v p).2)^[n] v = v.looked ctx (2 * n) (2 * n) := by
  induction n with
  | zero => simp [World.looked]
  | succ n ih => rw [Function.iterate_succ_apply', ih, h, World.looked_looked, Nat.mul_succ]

/-- A pass over the machine that shows its server only looks at it, twice. -/
theorem run_reconcile_shown {ctx : MachineContext} (hbegin : (w.run (a.begin m)).1 = .ok ctx)
    (hliving : m.metadata.isDeleting = false) (hcluster : ctx.identity.clusterId ≠ "")
    (hv : World.Healed w v) (hx : v.store.bearers ctx.identity = [x]) (hfits : ctx.spec.Fits x) :
    v.run (a.reconcile (m.marked.withServer x)) =
      (.ok (.requeue machineResync), v.looked ctx 2 2) := by
  have hsame : (m.marked.withServer x).essentials = m.essentials :=
    (m.marked.essentials_withServer x).trans m.essentials_marked
  have hliving' : (m.marked.withServer x).metadata.isDeleting = false :=
    (m.marked.isDeleting_withServer x).trans (m.isDeleting_marked.trans hliving)
  obtain ⟨sent, hrun, hnone⟩ := World.run_converge hbegin hsame hcluster hv hx hfits
  rw [reconcile_living a hliving', hrun,
    hnone m.hasFinalizer_marked (m.marked.withServer_withServer x)]
  simp [World.looked]

end FurtherPasses

/-- A pass that succeeds leaves exactly one server that matches the machine. With the patches of the
pass applied, the stored machine carries the finalizer and shows that server. From there, while
nothing fails, every further pass succeeds with the same action, sends no patch and asks the
provider for nothing but the list of servers. -/
theorem pass_converges (a : Actuator) (hstored : m.StoredIn doc)
    (hliving : m.metadata.isDeleting = false) (hlabel : m.labels.get? clusterIdLabel ≠ some "")
    (hok : (w.run (a.reconcile m)).1 = .ok action) (hu : (w.run (a.reconcile m)).2 = u) :
    ∃ i sent x m', m.identity? = some i ∧ u.patches = w.patches ++ sent ∧
      u.store.servers.filter (fun y => i.owns y.tags) = [x] ∧
      m'.StoredIn (Simulation.applied sent doc) ∧
      "machine.machine.openshift.io" ∈ m'.finalizers ∧ m'.Shows x ∧
      ∀ v, u.Resumed v → ∀ n after, (fun v => (World.run v (a.reconcile m')).2)^[n] v = after →
        (after.run (a.reconcile m')).1 = .ok action ∧
        (after.run (a.reconcile m')).2.patches = v.patches ∧
        (after.run (a.reconcile m')).2.store = { v.store with
          calls := v.store.calls ++
            List.replicate (2 * (n + 1)) (.listServers (some i.lookupFilter)) } := by
  subst hu
  rw [reconcile_living a hliving] at hok ⊢
  obtain ⟨ctx, hbegin, hessentials⟩ := begin_of_converge hok
  have hi := identity?_of_essentials hessentials
  have hcluster := clusterId_ne_empty hi hlabel
  obtain ⟨sent, hsent, hends⟩ := w.canEnd_cluster (a.converge m) doc
  obtain ⟨rfl, x, space, spec, hx, hm', hspec, hfits⟩ :=
    (converge_ends hi hcluster hends).settled hstored hok
  obtain rfl : ctx.spec = spec := by
    have hparts := Except.ok.inj (hessentials.symm.trans hspec)
    exact congrArg (fun parts => parts.2.2) hparts
  refine ⟨ctx.identity, sent, x, _, hi, hsent, ?_, hm',
    List.contains_iff_mem.1 m.hasFinalizer_marked, m.marked.shows_withServer x,
    fun v hv n after hafter => ?_⟩
  · exact (Store.filter_owns hcluster _).trans hx
  have halike := World.readsAlike_run (ExceptT.run (a.converge m)) w
  have hquiet : ∀ b c, (v.looked ctx b c).run (a.reconcile (m.marked.withServer x)) =
      (.ok (.requeue machineResync), (v.looked ctx b c).looked ctx 2 2) := by
    intro b c
    have hhealed : World.Healed w (v.looked ctx b c) :=
      ⟨hv.secrets.trans halike.secrets, hv.strictTokens.trans halike.strictTokens, hv.broken,
        hv.store.failures⟩
    have hfound : (v.looked ctx b c).store.bearers ctx.identity = [x] :=
      (Store.bearers_congr hv.store.servers _).trans hx
    exact run_reconcile_shown hbegin hliving hcluster hhealed hfound hfits
  obtain rfl := (iterate_looked (fun b c => congrArg Prod.snd (hquiet b c)) n).symm.trans hafter
  rw [hquiet, World.looked_looked]
  exact ⟨rfl, rfl, by rw [Nat.mul_succ]; rfl⟩

/-- The first pass over a machine without a server, and one more over what it leaves. -/
theorem pass_converges_bare :
    ∃ (u : World) (x : Server) (m' : Machine),
      ((default : World).run (Actuator.reconcile default (.bare "a" "c"))).2 = u ∧
      u.store.servers.filter (fun y => (⟨"a", "c"⟩ : Identity).owns y.tags) = [x] ∧
      m'.StoredIn (Simulation.applied u.patches bareDocument) ∧
      "machine.machine.openshift.io" ∈ m'.finalizers ∧ m'.Shows x ∧
      (u.run (Actuator.reconcile default m')).1 = .ok (.requeue machineResync) ∧
      (u.run (Actuator.reconcile default m')).2.patches = u.patches := by
  have hlabel : (Machine.bare "a" "c").labels.get? clusterIdLabel = some "c" := rfl
  have hok := eq_ok_of_toOption (show ((default : World).run
    (Actuator.reconcile default (.bare "a" "c"))).1.toOption = some (.requeue machineResync) by
      decide +kernel)
  obtain ⟨i, sent, x, m', hi, hsent, hx, hm', hf, hshows, hfurther⟩ :=
    pass_converges default bare_storedIn rfl (by rw [hlabel]; decide) hok rfl
  obtain rfl : (⟨"a", "c"⟩ : Identity) = i :=
    Option.some.inj ((Machine.identity?_bare "a" "c").symm.trans hi)
  have hresumed := World.resumed_self
    (show ((default : World).run (Actuator.reconcile default (.bare "a" "c"))).2.broken = [] by
      decide +kernel)
    (show ((default : World).run
      (Actuator.reconcile default (.bare "a" "c"))).2.store.failures = [] by decide +kernel)
  obtain ⟨haction, hpatches, -⟩ := hfurther _ hresumed 0 _ rfl
  rw [← show _ = sent from hsent] at hm'
  exact ⟨_, x, m', rfl, hx, hm', hf, hshows, haction, hpatches⟩

end MachineProvider
