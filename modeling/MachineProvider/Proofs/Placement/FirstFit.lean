import Mathlib.Logic.Relation
import MachineProvider.Proofs.Cloud.Groups
import MachineProvider.Proofs.Simulation.Alike

/-! The first group of a key with room in the zone is handed out, or else a new one, and handed out
again for as long as the groups of the key in the zone stay as they are. -/
namespace MachineProvider

open Cloud (ServerGroup Store)
open Simulation (World)

variable {zone key : String} {gs : List ServerGroup} {g : ServerGroup}

/-- A group is for a key and a zone when it carries the key's tag and lies in the zone. -/
def Cloud.ServerGroup.IsFor (zone key : String) (g : ServerGroup) : Prop :=
  g.tags.get? antiAffinityTag = some key ∧ g.zone.slug = zone

instance : DecidablePred (ServerGroup.IsFor zone key) :=
  fun _ => inferInstanceAs (Decidable (_ ∧ _))

def Cloud.ServerGroup.Fits (zone key : String) (g : ServerGroup) : Prop :=
  g.IsFor zone key ∧ g.servers.length < maxGroupMembers

instance : DecidablePred (ServerGroup.Fits zone key) := fun _ => inferInstanceAs (Decidable (_ ∧ _))

/-- The groups for a key and a zone, in their order. -/
def bucket (zone key : String) (gs : List ServerGroup) : List ServerGroup :=
  gs.filter fun g => g.IsFor zone key

/-- The group fits and no one before it does. -/
def FirstFit (zone key : String) (gs : List ServerGroup) (g : ServerGroup) : Prop :=
  g.Fits zone key ∧ ∃ before after, gs = before ++ g :: after ∧ ∀ h ∈ before, ¬ h.Fits zone key

theorem firstFit_iff : FirstFit zone key gs g ↔ gs.find? (·.Fits zone key) = some g := by
  simp [FirstFit, List.find?_eq_some_iff_append]

theorem find?_hasRoom (s : Store) (zone key : String) :
    (s.listGroups (some ⟨antiAffinityTag, key⟩)).find? (hasRoom zone) =
      s.groups.find? (·.Fits zone key) := by
  unfold Store.listGroups
  rw [List.find?_filter]
  refine congrArg (fun p => s.groups.find? p) (funext fun g => Bool.eq_iff_iff.2 ?_)
  simp [hasRoom, Store.admits, Cloud.TagFilter.holds, ServerGroup.Fits,
    ServerGroup.IsFor, and_assoc]

/-- Which group fits first is a matter of the groups for the key and the zone. -/
theorem find?_bucket (zone key : String) (gs : List ServerGroup) :
    (bucket zone key gs).find? (·.servers.length < maxGroupMembers) =
      gs.find? (·.Fits zone key) := by
  unfold bucket
  simp only [List.find?_filter, decide_eq_true_eq]
  rfl

theorem bucket_cons_of_not_isFor (h : ¬ g.IsFor zone key) :
    bucket zone key (g :: gs) = bucket zone key gs :=
  List.filter_cons_of_neg (decide_eq_true_iff.not.2 h)

theorem bucket_append (gs hs : List ServerGroup) :
    bucket zone key (gs ++ hs) = bucket zone key gs ++ bucket zone key hs := List.filter_append ..

/-- A new group for a key and a zone. -/
def emptyGroup (zone key uuid : String) : ServerGroup :=
  ⟨Store.groupHref uuid, uuid, key, "anti-affinity", ⟨zone⟩, [], .ofList [(antiAffinityTag, key)]⟩

theorem emptyGroup_isFor {zone' key' uuid : String} :
    (emptyGroup zone' key' uuid).IsFor zone key ↔ (zone', key') = (zone, key) := by
  simp [emptyGroup, ServerGroup.IsFor, StringMap.get?, StringMap.ofList, Entries.ofList,
    Entries.insert, and_comm]

theorem emptyGroup_fits (zone key uuid : String) : (emptyGroup zone key uuid).Fits zone key :=
  ⟨emptyGroup_isFor.2 rfl, Nat.succ_pos 3⟩

section Spared

variable {s t : Store} {stub : Cloud.ServerStub} {uuid : String}

/-- A call that makes no group for a key and a zone, adds no server to one and takes none away. -/
def Cloud.Call.Spares (zone key : String) (s : Store) : Cloud.Call → Prop
  | .createServer request => ∀ g ∈ bucket zone key s.groups, g.uuid ∉ request.groups
  | .deleteServer uuid => ∀ g ∈ bucket zone key s.groups, ∀ x ∈ g.servers, x.uuid ≠ uuid
  | .createGroup request =>
    ¬ (request.tags.get? antiAffinityTag = some key ∧ request.zone = zone)
  | _ => True

theorem bucket_joinGroup (h : ∀ g ∈ bucket zone key gs, g.uuid ≠ uuid) :
    bucket zone key (Store.joinGroup uuid stub gs) = bucket zone key gs := by
  rcases Store.joinGroup_cases uuid stub gs with ⟨-, heq⟩ | ⟨before, g, after, -, hg, rfl, heq⟩
  · rw [heq]
  · have hno : ¬ g.IsFor zone key := fun hfor =>
      h g (List.mem_filter.2 ⟨by simp, decide_eq_true hfor⟩) hg
    rw [heq, bucket_append, bucket_append, bucket_cons_of_not_isFor hno]
    exact congrArg _ (bucket_cons_of_not_isFor hno)

theorem bucket_foldl_joinGroup {uuids : List String}
    (h : ∀ g ∈ bucket zone key gs, g.uuid ∉ uuids) :
    bucket zone key (uuids.foldl (fun gs uuid => Store.joinGroup uuid stub gs) gs) =
      bucket zone key gs := by
  induction uuids generalizing gs with
  | nil => rfl
  | cons uuid uuids ih =>
    have hjoin : bucket zone key (Store.joinGroup uuid stub gs) = bucket zone key gs :=
      bucket_joinGroup fun g hg heq => h g hg (heq ▸ List.mem_cons_self)
    refine (ih fun g hg => ?_).trans hjoin
    exact fun hmem => h g (hjoin ▸ hg) (List.mem_cons_of_mem _ hmem)

theorem bucket_map_leaveGroup (h : ∀ g ∈ bucket zone key gs, ∀ x ∈ g.servers, x.uuid ≠ uuid) :
    bucket zone key (gs.map (Store.leaveGroup uuid)) = bucket zone key gs := by
  have hstays : ∀ g ∈ bucket zone key gs, Store.leaveGroup uuid g = g := by
    intro g hg
    have hall : g.servers.filter (·.uuid ≠ uuid) = g.servers :=
      List.filter_eq_self.2 fun x hx => by simpa using h g hg x hx
    unfold Store.leaveGroup
    rw [hall]
  calc bucket zone key (gs.map (Store.leaveGroup uuid))
      = (bucket zone key gs).map (Store.leaveGroup uuid) := List.filter_map
    _ = bucket zone key gs := (List.map_congr_left hstays).trans (List.map_id' _)

theorem Cloud.Store.Serves.bucket_eq {c : Cloud.Call} {r : Except Cloud.Error c.Result}
    (h : s.Serves c r t) (hc : c.Spares zone key s) :
    bucket zone key t.groups = bucket zone key s.groups := by
  cases r with
  | error e => rw [(h.untouched rfl).groups]
  | ok a =>
    cases c with
    | createServer request =>
      rw [(h.created rfl).2.2.1]
      exact bucket_foldl_joinGroup hc
    | deleteServer uuid =>
      rw [(h.removed rfl).2.1]
      exact bucket_map_leaveGroup hc
    | createGroup request =>
      obtain ⟨-, hstore⟩ := h.opened rfl
      have hnot : bucket zone key [(s.createGroup request).1] = [] :=
        bucket_cons_of_not_isFor hc
      rw [hstore.groups]
      exact (bucket_append _ _).trans ((congrArg _ hnot).trans (List.append_nil _))
    | _ => rw [h.groups_eq (by rintro _ ⟨⟩) (by rintro _ ⟨⟩) (by rintro _ ⟨⟩)]

end Spared

namespace Simulation.World

variable {w u v : World} {uuid : String}

/-- The world after one more look at the groups of a key. -/
def searched (w : World) (key : String) : World :=
  w.logged (.listGroups (some ⟨antiAffinityTag, key⟩))

/-- The world with an empty group at the end, and the two calls it took on record. -/
def withGroup (w : World) (zone key uuid : String) : World :=
  { w with store := { w.store with
      groups := w.store.groups ++ [emptyGroup zone key uuid]
      calls := w.store.calls ++
        [.listGroups (some ⟨antiAffinityTag, key⟩), .createGroup (groupRequest zone key)]
      issued := w.store.issued + 1 } }

theorem run_allocateGroup_found (hw : w.store.failures = [])
    (hg : w.store.groups.find? (·.Fits zone key) = some g) :
    w.run (allocateGroup zone key) = (.ok g.uuid, w.searched key) := by
  have hlist := run_listGroups hw (some ⟨antiAffinityTag, key⟩)
  refine (run_bind_ok hlist).trans ?_
  rw [find?_hasRoom, hg]
  rfl

theorem run_allocateGroup_opened (hw : w.store.failures = [])
    (hnone : w.store.groups.find? (·.Fits zone key) = none) :
    w.run (allocateGroup zone key) = (.ok (Store.identifier (w.store.issued + 1)),
      w.withGroup zone key (Store.identifier (w.store.issued + 1))) := by
  have hlist := run_listGroups hw (some ⟨antiAffinityTag, key⟩)
  have hopen := run_createGroup (w := w.searched key) hw (groupRequest zone key)
  refine (run_bind_ok hlist).trans ?_
  rw [find?_hasRoom, hnone]
  have hopened : (w.searched key).opened (groupRequest zone key) =
      w.withGroup zone key (Store.identifier (w.store.issued + 1)) := by
    unfold opened withGroup searched logged
    simp only [Store.createGroup, Store.addGroup, Store.fresh, List.append_assoc]
    rfl
  rw [← hopened]
  exact run_bind_ok hopen

/-- What an allocation hands out and leaves behind: the first group that fits, and nothing but the
look at the groups, or a new group under a new identifier. -/
inductive Allocates (zone key : String) (w : World) : String → World → Prop
  | found {g : ServerGroup} (h : FirstFit zone key w.store.groups g) :
    Allocates zone key w g.uuid (w.searched key)
  | opened {uuid : String} (hnone : ∀ g ∈ w.store.groups, ¬ g.Fits zone key)
    (hnew : uuid ∉ w.store.groupIds) : Allocates zone key w uuid (w.withGroup zone key uuid)

theorem run_allocateGroup (hw : w.store.failures = []) (hs : w.store.Distinct) (zone key : String) :
    ∃ uuid u, w.run (allocateGroup zone key) = (.ok uuid, u) ∧ Allocates zone key w uuid u := by
  cases hfind : w.store.groups.find? (·.Fits zone key) with
  | some g => exact ⟨_, _, run_allocateGroup_found hw hfind, .found (firstFit_iff.2 hfind)⟩
  | none =>
    refine ⟨_, _, run_allocateGroup_opened hw hfind, .opened ?_ hs.identifier_fresh⟩
    simpa using hfind

/-- The next allocation will hand out the group with this identifier. -/
structure Offers (zone key uuid : String) (w : World) : Prop where
  works : w.store.failures = []
  first : ∃ g,
    (bucket zone key w.store.groups).find? (·.servers.length < maxGroupMembers) = some g ∧
    g.uuid = uuid

theorem Offers.run (h : Offers zone key uuid w) :
    w.run (allocateGroup zone key) = (.ok uuid, w.searched key) := by
  obtain ⟨hw, g, hg, rfl⟩ := h
  exact run_allocateGroup_found hw ((find?_bucket zone key _).symm.trans hg)

theorem Offers.congr (h : Offers zone key uuid w) (hworks : u.store.failures = [])
    (hsame : bucket zone key u.store.groups = bucket zone key w.store.groups) :
    Offers zone key uuid u := ⟨hworks, hsame ▸ h.first⟩

theorem Allocates.offers (hw : w.store.failures = []) (h : Allocates zone key w uuid u) :
    Offers zone key uuid u := by
  cases h with
  | found hg => exact ⟨hw, _, (find?_bucket zone key _).trans (firstFit_iff.1 hg), rfl⟩
  | opened hnone hnew =>
    have hfind : w.store.groups.find? (·.Fits zone key) = none := by simpa using hnone
    refine ⟨hw, emptyGroup zone key uuid, (find?_bucket zone key _).trans ?_, rfl⟩
    refine List.find?_append.trans ?_
    rw [hfind, Option.none_or]
    exact List.find?_cons_of_pos (decide_eq_true (emptyGroup_fits zone key uuid))

/-- What may happen between two allocations: the same allocation, one for another key or zone, a
call that spares the groups of the key and the zone, and whatever else leaves them as they are. -/
inductive Interlude (zone key : String) (w : World) : World → Prop
  | same : Interlude zone key w (w.run (allocateGroup zone key)).2
  | other {zone' key' : String} (h : (zone', key') ≠ (zone, key)) :
    Interlude zone key w (w.run (allocateGroup zone' key')).2
  | call {c : Cloud.Call} {r : Except Cloud.Error c.Result} {t : Store} (h : w.store.Serves c r t)
    (hspares : c.Spares zone key w.store) : Interlude zone key w { w with store := t }
  | elsewhere {u : World} (hworks : u.store.failures = [])
    (hsame : bucket zone key u.store.groups = bucket zone key w.store.groups) :
    Interlude zone key w u

/-- An allocation for another key or zone leaves the groups as they are. -/
theorem bucket_run_allocateGroup {zone' key' : String} (hw : w.store.failures = [])
    (hne : (zone', key') ≠ (zone, key)) :
    (w.run (allocateGroup zone' key')).2.store.failures = [] ∧
      bucket zone key (w.run (allocateGroup zone' key')).2.store.groups =
        bucket zone key w.store.groups := by
  cases hfind : w.store.groups.find? (·.Fits zone' key') with
  | some g =>
    rw [run_allocateGroup_found hw hfind]
    exact ⟨hw, rfl⟩
  | none =>
    rw [run_allocateGroup_opened hw hfind]
    refine ⟨hw, (bucket_append _ _).trans ?_⟩
    have hnot :
        bucket zone key [emptyGroup zone' key' (Store.identifier (w.store.issued + 1))] = [] :=
      bucket_cons_of_not_isFor (emptyGroup_isFor.not.2 hne)
    rw [hnot, List.append_nil]

theorem Offers.interlude (h : Offers zone key uuid w) (hu : Interlude zone key w u) :
    Offers zone key uuid u := by
  cases hu with
  | same =>
    rw [h.run]
    exact h.congr h.works rfl
  | other hne =>
    obtain ⟨hworks, hsame⟩ := bucket_run_allocateGroup h.works hne
    exact h.congr hworks hsame
  | call hserves hspares =>
    exact h.congr (hserves.failures_eq.trans h.works) (hserves.bucket_eq hspares)
  | elsewhere hworks hsame => exact h.congr hworks hsame

theorem Offers.interludes (h : Offers zone key uuid w)
    (hv : Relation.ReflTransGen (Interlude zone key) w v) : Offers zone key uuid v := by
  induction hv with
  | refl => exact h
  | tail _ hstep ih => exact ih.interlude hstep

theorem distinct_run {α : Type} (hs : w.store.Distinct) (p : Program α) :
    (p.run answer w).2.store.Distinct :=
  (run_steps (R := fun w u => w.store.Distinct → u.store.Distinct) (fun _ => id)
    (fun h h' => h' ∘ h)
    (fun {c w} _ hs => (Answers.store (show w.Answers c _ _ from rfl)).distinct hs)
    p.only_true w).2 hs

/-- An allocation hands out the first group that fits and changes nothing, or makes one if there is
none. From then on, the same group is handed out and none made for as long as nothing happens to the
groups for the key and the zone. -/
theorem allocation_first_fit (hs : w.store.Distinct) (hworks : w.store.failures = [])
    (zone key : String) : ∃ uuid u,
      w.run (allocateGroup zone key) = (.ok uuid, u) ∧ Allocates zone key w uuid u ∧
        u.store.Distinct ∧ ∀ v, Relation.ReflTransGen (Interlude zone key) u v →
          v.run (allocateGroup zone key) = (.ok uuid, v.searched key) := by
  obtain ⟨uuid, u, hrun, halloc⟩ := run_allocateGroup hworks hs zone key
  refine ⟨uuid, u, hrun, halloc, ?_, fun v hv => ((halloc.offers hworks).interludes hv).run⟩
  have hdistinct := distinct_run hs (ExceptT.run (allocateGroup zone key))
  rwa [show (ExceptT.run (allocateGroup zone key)).run answer w = _ from hrun] at hdistinct

/-- A full group of a key, one in another zone and one of another key. -/
def crowded : World :=
  let tags (key : String) : Cloud.Tags := .ofList [(antiAffinityTag, key)]
  { (default : World) with
    store :=
      (((Store.empty.newGroup "k" "rma" (tags "k") 4).2.newGroup "k" "lpg" (tags "k") 0).2.newGroup
        "l" "rma" (tags "l") 2).2 }

theorem distinct_crowded : crowded.store.Distinct := by
  have hids : crowded.store.groupIds = [1, 6, 7].map Store.identifier := by decide +kernel
  refine ⟨by rw [hids]; decide +kernel, fun uuid huuid n hn => ?_⟩
  rw [hids] at huuid
  obtain ⟨m, hm, rfl⟩ := List.mem_map.1 huuid
  intro heq
  have hissued : 9 < n := hn
  obtain rfl := Store.identifier_injective heq
  simp at hm
  omega

/-- A look at another zone, a server in the group of another key and a new group of a third key. -/
def meanwhile (w : World) : World :=
  let searched := (w.run (allocateGroup "lpg" "k")).2
  let request : Cloud.ServerRequest :=
    { (default : Cloud.ServerRequest) with groups := [Store.identifier 7] }
  let joined := { searched with store := (searched.store.answer (.createServer request)).2 }
  (joined.run (allocateGroup "rma" "m")).2

/-- A fourth group is opened, and what happens elsewhere does not make the next allocation open
another. -/
theorem allocation_first_fit_crowded : crowded.store.Distinct ∧ crowded.store.failures = [] ∧
    (crowded.run (allocateGroup "rma" "k")).1 = .ok (Store.identifier 10) ∧
    let v := meanwhile (crowded.run (allocateGroup "rma" "k")).2
    v.store.groups.map (fun g => (g.uuid, g.servers.length)) =
      [(Store.identifier 1, 4), (Store.identifier 6, 0), (Store.identifier 7, 3),
        (Store.identifier 10, 0), (Store.identifier 13, 0)] ∧
    v.run (allocateGroup "rma" "k") = (.ok (Store.identifier 10), v.searched "k") := by
  obtain ⟨uuid, u, hrun, -, -, hlater⟩ := allocation_first_fit distinct_crowded rfl "rma" "k"
  have huuid : (crowded.run (allocateGroup "rma" "k")).1 = .ok (Store.identifier 10) :=
    eq_ok_of_toOption (by decide +kernel)
  obtain rfl : uuid = Store.identifier 10 := by
    rw [hrun] at huuid
    exact Except.ok.inj huuid
  obtain rfl : (crowded.run (allocateGroup "rma" "k")).2 = u := congrArg Prod.snd hrun
  refine ⟨distinct_crowded, rfl, huuid, by decide +kernel, hlater _ ?_⟩
  refine ((Relation.ReflTransGen.single (.other (by decide))).tail
    (.call (c := .createServer _) .answered ?_)).tail (.other (by decide))
  change ∀ g ∈ bucket "rma" "k" _, g.uuid ∉ [Store.identifier 7]
  decide +kernel

end Simulation.World

end MachineProvider
