import Mathlib.Logic.Relation
import MachineProvider.Proofs.Cloud.Groups
import MachineProvider.Proofs.Reconcile.Convergence
import MachineProvider.Proofs.Simulation.Alike
import MachineProvider.Proofs.Simulation.UserData

/-! However many passes were cut short, and wherever, the next pass that nothing disturbs
finishes the work. -/
namespace MachineProvider

open Cloud (Server Store)
open Kubernetes (Secret)
open Simulation (World)

variable {a : Actuator} {m n : Machine} {i : Identity} {spec : ProviderSpec} {space : String}
  {x : Server} {s t u : Store} {k l : Cluster} {doc : Json} {w v : World} {action : Action}

/-- A pass over the machine that is stored. Any of its calls may fail, and then has done nothing. -/
def Cluster.Pass (a : Actuator) (k l : Cluster) : Prop :=
  ∃ m r, Machine.decode k.document = .ok m ∧ (a.reconcile m).CanEnd Cluster.Answers k r l

/-- At most one group has been added, at the end. -/
def Cloud.Store.OneMoreGroup (s t : Store) : Prop :=
  ∃ added : List String, t.groupIds = s.groupIds ++ added ∧ added.length ≤ 1

theorem Grouped.oneMoreGroup (h : Grouped spec s t) : s.OneMoreGroup t := by
  obtain ⟨-, -, -, added, hgroups, hlength, -⟩ := h.kept
  exact ⟨added.map (·.uuid), by simp [Store.groupIds, hgroups], by simpa using hlength⟩

theorem Grouped.failures (h : Grouped spec s t) : t.failures = s.failures := by
  rcases h with h | ⟨-, -, h⟩
  · exact h.failures
  · exact h.failures

/-- Once a group is open, no further one is opened. -/
theorem Grouped.again (h : Grouped spec s t) (h' : Grouped spec t u) : Grouped spec s u := by
  rcases h' with h' | h'
  · exact h.trans h'
  · rcases h with h | h
    · exact .inr (h'.congr h (.refl u))
    · have hfull := h'.full
      rw [h.room] at hfull
      cases hfull

theorem Grouped.bearers (h : Grouped spec s t) (i : Identity) : t.bearers i = s.bearers i :=
  Store.bearers_congr h.kept.1 i

/-- Machines that come to show the same server alike have the same essentials. -/
theorem Machine.same_of_shown (h : n.marked.withServer x = m.marked.withServer x) :
    n.essentials = m.essentials ∧ n.metadata.isDeleting = m.metadata.isDeleting := by
  constructor
  · rw [← n.essentials_marked, ← n.marked.essentials_withServer x, h,
      m.marked.essentials_withServer x, m.essentials_marked]
  · rw [← n.isDeleting_marked, ← n.marked.isDeleting_withServer x, h,
      m.marked.isDeleting_withServer x, m.isDeleting_marked]

/-- How far passes over a machine may have come. Without a server, the finalizer may be set and,
after that, a group be open; with the server, all that may be missing is part of what the
machine shows. -/
inductive Underway (m : Machine) (i : Identity) (spec : ProviderSpec) (s : Store)
    (k : Cluster) : Prop
  | waiting {n : Machine} (hn : n.StoredIn k.document) (hnone : s.bearers i = [])
      (hstore : n = m ∧ s.Untouched k.store ∨ n = m.marked ∧ Grouped spec s k.store) :
      Underway m i spec s k
  | serving {n : Machine} {x : Server} (hn : n.StoredIn k.document)
      (hshown : n.marked.withServer x = m.marked.withServer x) (hx : k.store.bearers i = [x])
      (hfits : spec.Fits x) (hfailures : k.store.failures = s.failures)
      (hgroups : s.OneMoreGroup k.store) : Underway m i spec s k

namespace Underway

/-- With the finalizer set and no server, nothing or one group has been added. -/
theorem of_grouped (hm : m.marked.StoredIn k.document) (hnone : s.bearers i = [])
    (h : Grouped spec s k.store) : Underway m i spec s k := .waiting hm hnone (.inr ⟨rfl, h⟩)

/-- However far the only server has been recorded. -/
theorem of_recording (hn : n.marked.StoredIn doc)
    (hdoc : n.Recording (n.withServer x) doc k.document)
    (hshown : n.marked.withServer x = m.marked.withServer x) (hx : k.store.bearers i = [x])
    (hfits : spec.Fits x) (hfailures : k.store.failures = s.failures)
    (hgroups : s.OneMoreGroup k.store) : Underway m i spec s k := by
  obtain ⟨n', hn', hf, hsame⟩ := hdoc.stored hn
  refine .serving hn' ?_ hx hfits hfailures hgroups
  rw [Machine.marked_of_hasFinalizer hf, hsame, hshown]

/-- A creation that was cut short leaves a group, or the server with it. -/
theorem of_creates {r : Except Error Unit} (hm : m.essentials = .ok (space, i, spec))
    (hn : n.essentials = m.essentials) (hmarked : n.marked = m.marked)
    (hstored : n.marked.StoredIn k.document) (hnone : s.bearers i = [])
    (hgrouped : Grouped spec s k.store) (h : Creates n i k r l) : Underway m i spec s l := by
  have hspec : ∀ {space' : String} {spec' : ProviderSpec},
      n.essentials = .ok (space', i, spec') → spec' = spec := by
    intro space' spec' h'
    have hparts := Except.ok.inj ((hn.symm.trans h').symm.trans hm)
    exact congrArg (fun parts => parts.2.2) hparts
  cases h with
  | stopped h =>
    exact of_grouped (by rw [h.1, ← hmarked]; exact hstored) hnone (hgrouped.trans h.2)
  | opened hn' hdoc hopened =>
    obtain rfl := hspec hn'
    exact of_grouped (by rw [hdoc, ← hmarked]; exact hstored) hnone (hgrouped.again (.inr hopened))
  | @created r l space' spec' t request hn' ht htags hzone hflavor hstore hdoc _ =>
    obtain rfl := hspec hn'
    have hgrouped' := hgrouped.again ht
    refine of_recording hstored hdoc (by rw [hmarked]) ?_ (fits_newborn hzone hflavor)
      (hstore.failures.trans hgrouped'.failures) ?_
    · rw [bearers_of_created htags hstore, hgrouped'.bearers, hnone]
      rfl
    · obtain ⟨added, hadded, hlength⟩ := hgrouped'.oneMoreGroup
      refine ⟨added, ?_, hlength⟩
      rw [← hadded, ← Store.groupIds_congr (t.labels_createServer request)]
      exact congrArg (List.map (·.uuid)) hstore.groups

/-- Without a server, a pass may set the finalizer, open a group and create the server. -/
theorem of_waiting {r : Except Error Action} (hm : m.essentials = .ok (space, i, spec))
    (hn : n.StoredIn k.document) (hnone : s.bearers i = [])
    (hstore : n = m ∧ s.Untouched k.store ∨ n = m.marked ∧ Grouped spec s k.store)
    (h : Converges n i k r l) : Underway m i spec s l := by
  have hgrouped : Grouped spec s k.store := hstore.elim (fun h => .inl h.2) fun h => h.2
  have hmarked : n.marked = m.marked := by
    rcases hstore with ⟨rfl, -⟩ | ⟨rfl, -⟩
    · rfl
    · exact m.marked_marked
  have hsame : n.essentials = m.essentials := by
    rw [← n.essentials_marked, hmarked, m.essentials_marked]
  cases h with
  | stopped hdoc hstopped =>
    rcases hdoc with hdoc | hdoc
    · refine .waiting (hdoc ▸ hn) hnone (hstore.imp ?_ ?_)
      · exact fun h => ⟨h.1, h.2.trans hstopped⟩
      · exact fun h => ⟨h.1, h.2.trans hstopped⟩
    · exact of_grouped (by rw [hdoc, ← hmarked]; exact hn.marked) hnone (hgrouped.trans hstopped)
  | updated _ hx _ _ _ =>
    rw [hgrouped.bearers, hnone] at hx
    cases hx
  | created hdoc hkept _ hcreate =>
    exact of_creates hm hsame hmarked (hdoc ▸ hn.marked) hnone (hgrouped.trans hkept) hcreate

/-- With the server, a pass at most records more of it. -/
theorem of_serving {r : Except Error Action} (hn : n.StoredIn k.document)
    (hshown : n.marked.withServer x = m.marked.withServer x) (hx : k.store.bearers i = [x])
    (hfits : spec.Fits x) (hfailures : k.store.failures = s.failures)
    (hgroups : s.OneMoreGroup k.store) (h : Converges n i k r l) : Underway m i spec s l := by
  have hkept : ∀ {t : Store}, k.store.Untouched t →
      t.bearers i = [x] ∧ t.failures = s.failures ∧ s.OneMoreGroup t := by
    intro t ht
    refine ⟨(ht.bearers i).trans hx, ht.failures.trans hfailures, ?_⟩
    unfold Store.OneMoreGroup Store.groupIds
    rw [ht.groups]
    exact hgroups
  cases h with
  | stopped hdoc hstore =>
    obtain ⟨hx', hfailures', hgroups'⟩ := hkept hstore
    rcases hdoc with hdoc | hdoc
    · exact .serving (hdoc ▸ hn) hshown hx' hfits hfailures' hgroups'
    · exact .serving (hdoc ▸ hn.marked) (by rw [n.marked_marked, hshown]) hx' hfits
        hfailures' hgroups'
  | updated _ hy hstore hdoc _ =>
    obtain ⟨hx', hfailures', hgroups'⟩ := hkept hstore
    obtain ⟨rfl, -⟩ := List.cons.inj (hx.symm.trans hy)
    exact of_recording hn.marked hdoc hshown hx' hfits hfailures' hgroups'
  | created _ _ hnone _ =>
    rw [hx] at hnone
    cases hnone

/-- What is stored is the machine, as far as the essentials go. -/
theorem same (h : Underway m i spec s k) (hn : n.StoredIn k.document) :
    n.essentials = m.essentials ∧ n.metadata.isDeleting = m.metadata.isDeleting := by
  cases h with
  | waiting hn' _ hstore =>
    obtain rfl := hn'.unique hn
    rcases hstore with ⟨rfl, -⟩ | ⟨rfl, -⟩
    · exact ⟨rfl, rfl⟩
    · exact ⟨m.essentials_marked, m.isDeleting_marked⟩
  | serving hn' hshown _ _ _ _ =>
    obtain rfl := hn'.unique hn
    exact Machine.same_of_shown hshown

theorem stored (h : Underway m i spec s k) : ∃ n : Machine, n.StoredIn k.document := by
  cases h with
  | waiting hn _ _ => exact ⟨_, hn⟩
  | serving hn _ _ _ _ _ => exact ⟨_, hn⟩

/-- Whatever a pass comes to, the work is still underway. -/
theorem pass (hm : m.essentials = .ok (space, i, spec)) (hcluster : i.clusterId ≠ "")
    (hliving : m.metadata.isDeleting = false) (h : Underway m i spec s k) (hpass : k.Pass a l) :
    Underway m i spec s l := by
  obtain ⟨n, hn⟩ := h.stored
  obtain ⟨hsame, hdeleting⟩ := h.same hn
  obtain ⟨n', r, hn', hends⟩ := hpass
  obtain rfl : n = n' := Except.ok.inj (hn.decoded.symm.trans hn')
  rw [reconcile_living a (hdeleting.trans hliving)] at hends
  have hconverges := converge_ends (identity?_of_essentials (hsame.trans hm)) hcluster hends
  cases h with
  | waiting hn' hnone hstore =>
    obtain rfl := hn'.unique hn
    exact of_waiting hm hn hnone hstore hconverges
  | serving hn' hshown hx hfits hfailures hgroups =>
    obtain rfl := hn'.unique hn
    exact of_serving hn hshown hx hfits hfailures hgroups hconverges

theorem passes (hm : m.essentials = .ok (space, i, spec)) (hcluster : i.clusterId ≠ "")
    (hliving : m.metadata.isDeleting = false) (h : Underway m i spec s k)
    (hpasses : Relation.ReflTransGen (Cluster.Pass a) k l) : Underway m i spec s l := by
  induction hpasses with
  | refl => exact h
  | tail _ hpass ih => exact ih.pass hm hcluster hliving hpass

/-- Where a pass that succeeds began. -/
theorem begun {r : Except Error Action} (hm : m.essentials = .ok (space, i, spec))
    (hstored : m.StoredIn k.document) (h : Converges m i k r l) (hok : r = .ok action) :
    Underway m i spec k.store k := by
  cases h with
  | stopped _ _ => cases hok
  | @updated r _ x _ spec' hm' hx _ _ hwhole =>
    cases r with
    | error e => cases hok
    | ok _ =>
      have hfits := (hwhole rfl).2
      obtain rfl : spec' = spec :=
        congrArg (fun parts => parts.2.2) (Except.ok.inj (hm'.symm.trans hm))
      exact .serving hstored rfl hx hfits rfl ⟨[], by simp, by simp⟩
  | created _ _ hnone _ => exact .waiting hstored hnone (.inl ⟨rfl, .refl _⟩)

/-- From wherever it was left, an undisturbed pass succeeds. -/
theorem succeeds (hm : m.essentials = .ok (space, i, spec)) (hcluster : i.clusterId ≠ "")
    (hbroken : w.broken = []) (hfailures : w.store.failures = [])
    (hok : ∃ action, (w.run (a.converge m)).1 = .ok action)
    (hmarked : ∃ action, (w.run (a.converge m.marked)).1 = .ok action)
    (h : Underway m i spec w.store k) (hn : n.StoredIn k.document) :
    ∃ action, (World.run { w with store := k.store } (a.converge n)).1 = .ok action := by
  have hreads : World.ReadsAlike w { w with store := k.store } := ⟨rfl, rfl, rfl⟩
  obtain ⟨action, hok⟩ := hok
  obtain ⟨action', hmarked⟩ := hmarked
  cases h with
  | waiting hn' hnone hstore =>
    obtain rfl := hn'.unique hn
    rcases hstore with ⟨rfl, huntouched⟩ | ⟨rfl, huntouched | hopened⟩
    · have halike : World.Alike w { w with store := k.store } := ⟨hreads, huntouched⟩
      exact ⟨action, (halike.run _).1.trans hok⟩
    · have halike : World.Alike w { w with store := k.store } := ⟨hreads, huntouched⟩
      exact ⟨action', (halike.run _).1.trans hmarked⟩
    · exact ⟨action', World.run_converge_ahead (m.essentials_marked.trans hm) ⟨hreads, hopened⟩
        hfailures hcluster hnone m.hasFinalizer_marked hmarked⟩
  | serving hn' hshown hx hfits hkept _ =>
    obtain rfl := hn'.unique hn
    obtain ⟨ctx, hbegin, hctx⟩ := begin_of_converge hok
    obtain ⟨-, hparts⟩ := Prod.mk.inj (Except.ok.inj (hm.symm.trans hctx))
    obtain ⟨rfl, rfl⟩ := Prod.mk.inj hparts
    have hhealed : World.Healed w { w with store := k.store } :=
      ⟨rfl, rfl, hbroken, hkept.trans hfailures⟩
    obtain ⟨sent, hrun, -⟩ := World.run_converge hbegin (Machine.same_of_shown hshown).1 hcluster
      hhealed hx hfits
    exact ⟨_, congrArg Prod.fst hrun⟩

/-- A machine that shows the only server is the first one showing it. -/
theorem finished (h : Underway m i spec s k) (hx : k.store.bearers i = [x])
    (hn : (n.marked.withServer x).StoredIn k.document) :
    n.marked.withServer x = m.marked.withServer x ∧ s.OneMoreGroup k.store := by
  cases h with
  | waiting _ hnone hstore =>
    have hgrouped : Grouped spec s k.store := hstore.elim (fun h => .inl h.2) fun h => h.2
    rw [hgrouped.bearers, hnone] at hx
    cases hx
  | serving hn' hshown hy _ _ hgroups =>
    obtain ⟨rfl, -⟩ := List.cons.inj (hx.symm.trans hy)
    obtain rfl := hn'.unique hn
    have hf : (n.marked.withServer x).hasFinalizer = true := n.hasFinalizer_marked
    rw [Machine.marked_of_hasFinalizer hf, Machine.withServer_withServer] at hshown
    exact ⟨hshown, hgroups⟩

end Underway

/-- Say that a machine can be reconciled without a failure, and can be with the finalizer set.
However many passes over the stored machine come first, and whichever of their calls fail, one pass
that nothing disturbs succeeds. Then there is exactly one server that matches, the stored machine
shows it and carries the finalizer, and there is at most one group more than at the start. -/
theorem pass_recovers (a : Actuator) (hstored : m.StoredIn doc)
    (hliving : m.metadata.isDeleting = false) (hlabel : m.labels.get? clusterIdLabel ≠ some "")
    (hbroken : w.broken = []) (hfailures : w.store.failures = [])
    (hok : ∃ action, (w.run (a.reconcile m)).1 = .ok action)
    (hmarked : ∃ action, (w.run (a.reconcile m.marked)).1 = .ok action)
    (hpasses : Relation.ReflTransGen (Cluster.Pass a) ⟨doc, w.store⟩ k) :
    ∃ n i x u sent, Machine.decode k.document = .ok n ∧ m.identity? = some i ∧
      World.run { w with store := k.store } (a.reconcile n) = (.ok (.requeue machineResync), u) ∧
      u.patches = w.patches ++ sent ∧ u.store.servers.filter (fun y => i.owns y.tags) = [x] ∧
      (m.marked.withServer x).StoredIn (Simulation.applied sent k.document) ∧
      w.store.OneMoreGroup u.store := by
  rw [reconcile_living a hliving] at hok
  rw [reconcile_living a (m.isDeleting_marked.trans hliving)] at hmarked
  obtain ⟨action, hfirst⟩ := hok
  obtain ⟨ctx, -, hm⟩ := begin_of_converge hfirst
  have hi := identity?_of_essentials hm
  have hcluster := clusterId_ne_empty hi hlabel
  obtain ⟨_, -, hends⟩ := w.canEnd_cluster (a.converge m) doc
  have hbegun := Underway.begun hm hstored (converge_ends hi hcluster hends) hfirst
  have hnow : Underway m ctx.identity ctx.spec w.store k :=
    hbegun.passes hm hcluster hliving hpasses
  obtain ⟨n, hn⟩ := hnow.stored
  obtain ⟨hsame, hdeleting⟩ := hnow.same hn
  obtain ⟨action', hok'⟩ := hnow.succeeds hm hcluster hbroken hfailures ⟨action, hfirst⟩ hmarked hn
  obtain ⟨sent, hsent, hends'⟩ :=
    World.canEnd_cluster { w with store := k.store } (a.reconcile n) k.document
  have hreconcile := reconcile_living a (hdeleting.trans hliving)
  rw [← hreconcile] at hok'
  cases hrun : World.run { w with store := k.store } (a.reconcile n) with
  | mk r u =>
    rw [hrun] at hok' hsent hends'
    have hafter := hnow.pass hm hcluster hliving ⟨n, r, hn.decoded, hends'⟩
    rw [hreconcile] at hends'
    have hconverges := converge_ends (identity?_of_essentials (hsame.trans hm)) hcluster hends'
    obtain ⟨rfl, x, -, -, hx, hm', -⟩ := hconverges.settled hn hok'
    obtain ⟨hshown, hgroups⟩ := hafter.finished hx hm'
    refine ⟨n, ctx.identity, x, u, sent, hn.decoded, hi, hrun.trans (Prod.ext hok' rfl), hsent, ?_,
      hshown ▸ hm', hgroups⟩
    exact (Store.filter_owns hcluster _).trans hx

theorem canEnd_begin_default (a : Actuator) (hm : m.essentials = .ok (space, i, spec))
    (htoken : spec.tokenSecret = none) (k : Cluster) :
    (a.begin m).CanEnd Cluster.Answers k (.ok ⟨m, space, i, spec, a.defaultToken⟩) k := by
  have hcontext : (m.context a.defaultToken).CanEnd Cluster.Answers k
      (.ok ⟨m, space, i, spec, a.defaultToken⟩) k := by
    refine Attempt.canEnd_bind.2 (.inl ⟨_, k, Attempt.canEnd_ofExcept.2 ⟨hm.symm, rfl⟩, ?_⟩)
    dsimp only
    rw [htoken]
    exact ⟨rfl, rfl⟩
  have hclient : (Attempt.client a.defaultToken).CanEnd Cluster.Answers k (.ok ()) k :=
    ⟨.ok (), k, rfl, rfl, rfl⟩
  exact Attempt.canEnd_bind.2
    (.inl ⟨_, k, hcontext, Attempt.canEnd_bind.2 (.inl ⟨(), k, hclient, rfl, rfl⟩)⟩)

/-- A pass can set the finalizer and stop there, when the servers cannot be listed. -/
theorem reconcile_cut (a : Actuator) (hliving : m.metadata.isDeleting = false)
    (hf : m.hasFinalizer = false) (hm : m.essentials = .ok (space, i, spec))
    (htoken : spec.tokenSecret = none) (doc : Json) (s : Store) (text : String) :
    (a.reconcile m).CanEnd Cluster.Answers ⟨doc, s⟩ (.error (.cloud (.api text)))
      ⟨m.markedIn doc, s⟩ := by
  have hmark : (m.setFinalizers (m.finalizers ++ [machineFinalizer])).CanEnd Cluster.Answers
      ⟨doc, s⟩ (.ok ()) ⟨m.markedIn doc, s⟩ := by
    refine Attempt.canEnd_control.2 (.inl ⟨rfl, ?_⟩)
    simp [Machine.markedIn, hf]
  generalize m.markedIn doc = marked at hmark ⊢
  have hlocate : i.locate.CanEnd Cluster.Answers ⟨marked, s⟩ (.error (.cloud (.api text)))
      ⟨marked, s⟩ :=
    Attempt.canEnd_bind.2
      (.inr ⟨_, rfl, Attempt.canEnd_cloud.2 ⟨.error (.api text), rfl, .failed _, rfl⟩⟩)
  have hexists : (a.exists_ m).CanEnd Cluster.Answers ⟨marked, s⟩ (.error (.cloud (.api text)))
      ⟨marked, s⟩ :=
    Attempt.canEnd_bind.2 (.inl ⟨_, _, canEnd_begin_default a hm htoken ⟨marked, s⟩,
      Attempt.canEnd_bind.2 (.inr ⟨_, rfl, hlocate⟩)⟩)
  rw [reconcile_living a hliving]
  unfold Actuator.converge
  rw [hf]
  exact Attempt.canEnd_bind.2 (.inl ⟨(), _, hmark, Attempt.canEnd_bind.2 (.inr ⟨_, rfl, hexists⟩)⟩)

/-- A first pass that stops once the finalizer is set, and the pass after it. -/
theorem pass_recovers_bare :
    ∃ (k : Cluster) (n : Machine) (u : World), Cluster.Pass default ⟨bareDocument, Store.empty⟩ k ∧
      Machine.decode k.document = .ok n ∧ n.hasFinalizer = true ∧
      World.run { (default : World) with store := k.store } (Actuator.reconcile default n) =
        (.ok (.requeue machineResync), u) ∧ u.store.servers ≠ [] := by
  have hessentials : (Machine.bare "a" "c").essentials = .ok ("ns", ⟨"a", "c"⟩, default) := rfl
  have hpass : Cluster.Pass default ⟨bareDocument, Store.empty⟩ _ :=
    ⟨_, _, bare_storedIn.decoded, reconcile_cut default rfl rfl hessentials rfl _ _ "cut"⟩
  have hlabel : (Machine.bare "a" "c").labels.get? clusterIdLabel = some "c" := rfl
  obtain ⟨n, i, x, u, sent, hn, -, hrun, -, hx, -⟩ := pass_recovers default bare_storedIn rfl
    (by rw [hlabel]; decide) (w := default) rfl rfl
    ⟨_, eq_ok_of_toOption (show _ = some (Action.requeue machineResync) by decide +kernel)⟩
    ⟨_, eq_ok_of_toOption (show _ = some (Action.requeue machineResync) by decide +kernel)⟩
    (.single hpass)
  have hmarked := bare_storedIn.marked
  obtain rfl := Except.ok.inj (hmarked.decoded.symm.trans hn)
  refine ⟨_, _, u, hpass, hn, Machine.hasFinalizer_marked _, hrun, fun hnone => ?_⟩
  rw [hnone] at hx
  cases hx

/-- A template that refuses machines with finalizers. -/
def wary : String :=
  "if 'finalizers' in std.extVar('context').machine.metadata then error '' else \x7b\x7d"

def warySecret : Secret :=
  { (default : Secret) with
    metadata := { (default : Kubernetes.Metadata) with name := some "t", namespace_ := some "ns" }
    data := some (.ofList [(userDataKey, Text.plainBytes wary.toList)]) }

def warySpec : ProviderSpec := { (default : ProviderSpec) with userDataSecret := some ⟨"t"⟩ }

/-- A machine whose user data comes from that template. -/
def waryMachine : Machine :=
  { Machine.bare "a" "c" with
    spec := ⟨none, some (.object [("userDataSecret", .object [("name", .string "t")])])⟩ }

def waryDocument : Json :=
  .object [("metadata", .object [("labels", .object [(clusterIdLabel, .string "c")]),
    ("name", .string "a"), ("namespace", .string "ns")]),
    ("spec", .object [("providerSpec", .object [("value",
      .object [("userDataSecret", .object [("name", .string "t")])])])])]

def waryWorld : World := { (default : World) with secrets := [warySecret] }

def waryContext (m : Machine) : Json := TemplateContext.toJson ⟨m.toJson, warySecret.texts, []⟩

theorem waryMachine_storedIn : waryMachine.StoredIn waryDocument where
  canonical :=
    ⟨by decide, ⟨by decide, ⟨by decide, trivial, trivial⟩, trivial, trivial, trivial⟩,
      ⟨by decide, ⟨by decide, ⟨by decide, ⟨by decide, trivial, trivial⟩, trivial⟩, trivial⟩,
        trivial⟩,
      trivial⟩
  object := ⟨_, rfl⟩
  spec := ⟨_, rfl⟩
  status v h := by simp [waryDocument, Json.get?] at h
  decoded := by rfl

theorem waryMachine_essentials : waryMachine.essentials = .ok ("ns", ⟨"a", "c"⟩, warySpec) := by rfl

theorem warySecret_text : warySecret.texts.get? userDataKey = some wary := by
  have hplain : wary.toList.all (fun c => decide (c.toNat < 128)) = true := by
    unfold wary
    rw [String.toList_ofList]
    decide +kernel
  rw [← ofUtf8Lossy_plainBytes hplain]
  rfl

/-- Only the finalizer decides how the template renders. -/
theorem wary_renders :
    (renderTemplate wary (waryContext waryMachine)).toOption = some "\x7b\x7d" ∧
      (renderTemplate wary (waryContext waryMachine.marked)).toOption = none := by
  unfold renderTemplate Jsonnet.evaluated wary
  rw [Jsonnet.prelude_eq, Jsonnet.program_eq]
  simp only [Jsonnet.preludeMembers, List.map_cons, List.map_nil]
  repeat rw [String.toList_ofList]
  decide +kernel

/-- Once the server is found missing, the rest of a pass is up to the template. -/
theorem run_create_wary (hw : World.ReadsAlike waryWorld w)
    (hm : m.essentials = .ok ("ns", ⟨"a", "c"⟩, warySpec)) :
    w.run (Actuator.create default m) = match renderTemplate wary (waryContext m) with
      | .error e => (.error (.render e), { w with tokens := w.tokens ++ [""] })
      | .ok userData =>
        let ctx : MachineContext := ⟨m, "ns", ⟨"a", "c"⟩, warySpec, ""⟩
        World.run { w with tokens := w.tokens ++ [""] } (do
          let groups ← ctx.groups
          let server ← ctx.createServer (ctx.serverRequest groups userData)
          ctx.recordServer server
          ctx.tagVolume server (default : Actuator).taggingBackoff) := by
  have hsecret : World.findSecret { w with tokens := w.tokens ++ [""] } "ns" "t" =
      some warySecret := by
    unfold World.findSecret
    rw [show _ = [warySecret] from hw.secrets]
    rfl
  have hreference : warySpec.userDataSecret = some ⟨"t"⟩ := rfl
  have hload := run_loadUserData (m := m) (w := { w with tokens := w.tokens ++ [""] })
    (by rw [hw.broken]; rfl) hreference rfl hsecret warySecret_text (by decide +kernel)
  refine (World.run_bind_ok (run_begin_default default hm rfl hw.strictTokens)).trans ?_
  change _ = ((renderTemplate wary (waryContext m)).mapError Error.render, _) at hload
  cases hrender : renderTemplate wary (waryContext m) with
  | error e =>
    rw [hrender] at hload
    exact World.run_bind_error hload
  | ok userData =>
    rw [hrender] at hload
    exact World.run_bind_ok hload

/-- Where no server is found, a pass is as good as the creation. -/
theorem run_missing (hw : (w.run (a.exists_ m)).1 = .ok false) : (w.run (do
      if ← a.exists_ m then a.update m else a.create m
      return Action.requeue machineResync : Attempt Action)).1 =
      (World.run (w.run (a.exists_ m)).2 (a.create m)).1.map fun _ => .requeue machineResync := by
  have hexists : w.run (a.exists_ m) = (.ok false, (w.run (a.exists_ m)).2) := Prod.ext hw rfl
  refine (congrArg Prod.fst (World.run_bind_ok hexists)).trans ?_
  generalize (w.run (a.exists_ m)).2 = u
  cases hcreate : u.run (a.create m) with
  | mk r v =>
    cases r with
    | error e => exact congrArg Prod.fst (World.run_bind_error hcreate)
    | ok _ => exact congrArg Prod.fst (World.run_bind_ok hcreate)

/-- That a first pass would succeed is not enough: once the finalizer is set, the
template sees it. -/
theorem recovery_needs_marked_pass :
    ∃ (a : Actuator) (m n : Machine) (doc : Json) (w : World) (k : Cluster),
      m.StoredIn doc ∧ m.metadata.isDeleting = false ∧ m.labels.get? clusterIdLabel = some "c" ∧
      w.broken = [] ∧ w.store.failures = [] ∧
      (w.run (a.reconcile m)).1 = .ok (.requeue machineResync) ∧
      (a.reconcile m).CanEnd Cluster.Answers ⟨doc, w.store⟩ (.error (.cloud (.api "cut"))) k ∧
      n.StoredIn k.document ∧
      ∃ e, (World.run { w with store := k.store } (a.reconcile n)).1 = .error e := by
  obtain ⟨hplain, hmarked⟩ := wary_renders
  have hfirst : (waryWorld.run (Actuator.converge default waryMachine)).1 =
      .ok (.requeue machineResync) := by
    have hmissing := eq_ok_of_toOption
      (show (World.run (waryWorld.send (World.markPatch waryMachine))
        (Actuator.exists_ default waryMachine)).1.toOption = some false by decide +kernel)
    have hsent : World.ReadsAlike waryWorld (waryWorld.send (World.markPatch waryMachine)) :=
      ⟨rfl, rfl, rfl⟩
    have hcreate := run_create_wary (hsent.trans (World.readsAlike_run (ExceptT.run
      (Actuator.exists_ default waryMachine)) _)) waryMachine_essentials
    rw [eq_ok_of_toOption hplain] at hcreate
    have hcreated : (World.run (World.run (waryWorld.send (World.markPatch waryMachine))
        (Actuator.exists_ default waryMachine)).2 (Actuator.create default waryMachine)).1 =
          .ok () := by
      refine (congrArg Prod.fst hcreate).trans (eq_ok_of_toOption ?_)
      decide +kernel
    have hmark := World.run_converge_unmarked (a := default) (w := waryWorld)
      (m := waryMachine) rfl rfl
    rw [hmark, run_missing hmissing, hcreated]
    rfl
  have hsecond : ∃ e, (waryWorld.run (Actuator.converge default waryMachine.marked)).1 =
      .error e := by
    have hmissing := eq_ok_of_toOption (show (waryWorld.run
      (Actuator.exists_ default waryMachine.marked)).1.toOption = some false by decide +kernel)
    have hcreate := run_create_wary (World.readsAlike_run (ExceptT.run
      (Actuator.exists_ default waryMachine.marked)) waryWorld)
      (waryMachine.essentials_marked.trans waryMachine_essentials)
    cases hrender : renderTemplate wary (waryContext waryMachine.marked) with
    | ok userData => rw [hrender] at hmarked; cases hmarked
    | error e =>
      rw [hrender] at hcreate
      refine ⟨.render e, (run_missing hmissing).trans ?_⟩
      exact congrArg (fun r => Except.map _ (Prod.fst r)) hcreate
  exact ⟨default, waryMachine, waryMachine.marked, waryDocument, waryWorld, _, waryMachine_storedIn,
    rfl, rfl, rfl, rfl, hfirst, reconcile_cut default rfl rfl waryMachine_essentials rfl _ _ "cut",
    waryMachine_storedIn.marked, hsecond⟩

end MachineProvider
