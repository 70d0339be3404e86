import MachineProvider.Proofs.Placement.Operations

/-! How full a group of one key gets when creates and deletes are interleaved. A create relies on a
look at the groups that may be out of date, so a group holds too many servers by as many creates as
allocate at once with another, and by no more. -/
namespace MachineProvider

open Cloud (ServerGroup Store)
open Placement (notebook protocol)

variable {ι : Type} {admits : Machine → Prop} {K : Nat} {s t : Store} {alloc : Allocation}
  {ν : Option Allocation} {uuid : String}

namespace Allocation

/-- What was seen is still there, and a full group is no choice. -/
structure Current (s : Store) (alloc : Allocation) : Prop where
  seen : ∀ g ∈ alloc.seen, g.label ∈ s.labels ∧ g.keyed = true
  opened : ∀ g, alloc.opened = some g → g.uuid ∈ s.groupIds
  full : ∀ g ∈ alloc.seen, maxGroupMembers ≤ g.servers.length → g.uuid ∉ alloc.choices

theorem Current.mono (h : alloc.Current s) (hlabels : s.labels ⊆ t.labels) : alloc.Current t where
  seen g hg := ⟨hlabels (h.seen g hg).1, (h.seen g hg).2⟩
  opened g hg := Store.groupIds_subset hlabels (h.opened g hg)
  full := h.full

theorem Current.mem_groupIds (h : alloc.Current s) (huuid : uuid ∈ alloc.choices) :
    uuid ∈ s.groupIds := by
  unfold choices at huuid
  split at huuid
  · next g hopened =>
    obtain rfl := List.mem_singleton.1 huuid
    exact h.opened g hopened
  · obtain ⟨g, hg, rfl⟩ := List.mem_map.1 huuid
    rw [Store.groupIds_eq_labels]
    exact List.mem_map_of_mem (f := Prod.fst) (h.seen g (List.mem_of_mem_filter hg)).1

/-- The groups are seen as they are. -/
theorem current_listGroups (hs : s.Distinct) (key : String) :
    (Allocation.mk (s.listGroups (some ⟨antiAffinityTag, key⟩)) none).Current s where
  seen g hg := ⟨List.mem_map_of_mem (List.mem_of_mem_filter hg), Store.keyed_of_mem_listGroups hg⟩
  opened g hg := by cases hg
  full g hg hfull hchoice := by
    obtain ⟨h, hh, huuid⟩ := List.mem_map.1 hchoice
    obtain ⟨hh, hroom⟩ := List.mem_filter.1 hh
    obtain rfl := hs.eq_of_uuid (List.mem_of_mem_filter hh) (List.mem_of_mem_filter hg) huuid
    exact Nat.not_lt.2 hfull (of_decide_eq_true hroom)

/-- A group that was made since is none of those that were seen. -/
theorem Current.add (h : alloc.Current s) {g : ServerGroup} (hgroups : t.groups = s.groups ++ [g])
    (hfresh : g.uuid ∉ s.groupIds) : Current t { alloc with opened := some g } where
  seen f hf := by
    obtain ⟨hlabel, hkeyed⟩ := h.seen f hf
    refine ⟨?_, hkeyed⟩
    rw [Store.labels, hgroups, List.map_append]
    exact List.mem_append_left _ hlabel
  opened f hf := by
    obtain rfl := Option.some.inj hf
    rw [Store.groupIds, hgroups, List.map_append]
    exact List.mem_append_right _ (List.mem_singleton_self _)
  full f hf _ hchoice := by
    refine hfresh (List.mem_singleton.1 hchoice ▸ ?_)
    rw [Store.groupIds_eq_labels]
    exact List.mem_map_of_mem (f := Prod.fst) (h.seen f hf).1

theorem current_note {m : Machine} {c : Call} {r : c.Answer} (hs : s.Distinct)
    (hc : s.Answers c r t) (hallowed : Placement.Allowed m ν c)
    (hν : ∀ alloc, ν = some alloc → alloc.Current s) :
    ∀ alloc, notebook.note ν c r = some alloc → alloc.Current t := by
  have hlabels := hc.labels_subset
  rcases c.ungrouped_or with hun | ⟨filter, rfl⟩ | ⟨request, rfl⟩ | ⟨request, rfl⟩
  · rw [hun.note r]
    exact fun alloc halloc => (hν alloc halloc).mono hlabels
  · obtain ⟨key, rfl⟩ := hallowed
    cases hr : (r : Except Cloud.Error (List ServerGroup)) with
    | error e => subst hr; rintro alloc ⟨⟩
    | ok gs =>
      subst hr
      obtain ⟨rfl, -⟩ := Store.Serves.listed_groups hc rfl
      rintro alloc ⟨⟩
      exact (current_listGroups hs key).mono hlabels
  · cases hr : (r : Except Cloud.Error ServerGroup) with
    | error e => subst hr; rintro alloc ⟨⟩
    | ok g =>
      subst hr
      obtain ⟨hgroups, huuid, -, -⟩ := Store.Serves.added hc rfl
      intro alloc halloc
      obtain ⟨old, hold, rfl⟩ := Option.map_eq_some_iff.1 halloc
      exact (hν old hold).add hgroups (huuid ▸ hs.identifier_fresh)
  · rintro alloc ⟨⟩

end Allocation

namespace Placements

variable {w w' : Placements ι} {i j : ι} {p : Option (Program (Except Error Unit))}

/-- The operation may still pick the group. -/
def Chooses (w : Placements ι) (uuid : String) (i : ι) : Prop :=
  ∃ alloc, w.notes i = some alloc ∧ uuid ∈ alloc.choices

/-- Members that groups of a key may still get are counted as if they were there. -/
def Capped (K : Nat) (w : Placements ι) : Prop :=
  ∀ g ∈ w.fleet.world.groups, g.keyed = true → ∀ I : Finset ι, (∀ i ∈ I, w.Chooses g.uuid i) →
    g.servers.length + I.card < maxGroupMembers + K

/-- What every step preserves. -/
structure Sound (admits : Machine → Prop) (K : Nat) (w : Placements ι) : Prop where
  kept : w.Kept notebook fun m : { m // admits m } => protocol m.1
  distinct : w.fleet.world.Distinct
  unnamed : Unnamed admits w.fleet.world
  current : ∀ i alloc, w.notes i = some alloc → alloc.Current w.fleet.world
  capped : w.Capped K

theorem sound_idle (hK : 1 ≤ K) (hs : s.Distinct) (hunnamed : Unnamed admits s)
    (hmembers : ∀ g ∈ s.groups, g.keyed = true → g.servers.length ≤ maxGroupMembers) :
    Sound admits K (Watched.idle notebook s : Placements ι) where
  kept := Watched.kept_idle
  distinct := hs
  unnamed := hunnamed
  current := by rintro i alloc ⟨⟩
  capped g hg hkeyed I hI := by
    have hnone : I = ∅ := by
      refine Finset.eq_empty_of_forall_notMem fun i hi => ?_
      obtain ⟨_, ⟨⟩, _⟩ := hI i hi
    have hfour := hmembers g hg hkeyed
    rw [hnone, Finset.card_empty]
    omega

/-- A request for a server names a group of a key once at most, and then the operation chose it. -/
theorem Sound.named (hw : Sound admits K w) {request : Cloud.ServerRequest}
    (hi : w.fleet.AboutTo i (.cloud (.createServer request))) {g : ServerGroup}
    (hg : g ∈ w.fleet.world.groups) (hkeyed : g.keyed = true) :
    request.groups.count g.uuid ≤ 1 ∧ (g.uuid ∈ request.groups → w.Chooses g.uuid i) := by
  obtain ⟨⟨m, hm⟩, space, identity, spec, picked, hessentials, hgroups, hone, hpicked⟩ :=
    hw.kept.allowed hi (r := .error (.api "")) trivial
  have hnot := hw.unnamed m space identity spec hm hessentials g hg hkeyed
  rw [hgroups, List.count_append, List.count_eq_zero_of_not_mem hnot, Nat.zero_add]
  exact ⟨Nat.le_trans List.count_le_length hone, fun hmem =>
    hpicked _ ((List.mem_append.1 hmem).resolve_left hnot)⟩

variable [DecidableEq ι]

section Chooses

theorem Chooses.of_ne (h : (w.after i p t ν).Chooses uuid j) (hj : j ≠ i) : w.Chooses uuid j := by
  simpa [Chooses, after, hj] using h

theorem chooses_self :
    (w.after i p t ν).Chooses uuid i ↔ ∃ alloc, ν = some alloc ∧ uuid ∈ alloc.choices := by
  simp [Chooses, after]

/-- Without an allocation there is nothing to choose. -/
theorem Chooses.before (h : (w.after i p t none).Chooses uuid j) : j ≠ i ∧ w.Chooses uuid j := by
  have hj : j ≠ i := by
    rintro rfl
    obtain ⟨_, ⟨⟩, _⟩ := chooses_self.1 h
  exact ⟨hj, h.of_ne hj⟩

end Chooses

section Capped

/-- Nobody has more to choose from, and no group has more members. -/
theorem Capped.of_shrunk (hw : w.Capped K)
    (hgroups : ∀ h ∈ t.groups, ∃ g ∈ w.fleet.world.groups, g.GrownBy 0 h)
    (hchooses : ∀ uuid j, (w.after i p t ν).Chooses uuid j → w.Chooses uuid j) :
    (w.after i p t ν).Capped K := by
  intro h hh hkeyed I hI
  obtain ⟨g, hg, hgrown⟩ := hgroups h hh
  have hroom := hw g hg (ServerGroup.keyed_congr hgrown.label ▸ hkeyed) I fun j hj =>
    hgrown.uuid ▸ hchooses _ j (hI j hj)
  have hservers := hgrown.servers
  omega

/-- A look lets one more operation choose a group, if that has room: then there are as many members
as fill it but one, and as many operations as may allocate at once. -/
theorem Capped.look {gs : List ServerGroup} (hw : w.Capped K) (hs : w.fleet.world.Distinct)
    (hgroups : t.groups = w.fleet.world.groups) (hgs : gs ⊆ w.fleet.world.groups)
    (hcrowd : (w.after i p t (some ⟨gs, none⟩)).Allocating K) :
    (w.after i p t (some ⟨gs, none⟩)).Capped K := by
  intro h hh hkeyed I hI
  replace hh : h ∈ w.fleet.world.groups := hgroups ▸ hh
  by_cases hi : i ∈ I
  · obtain ⟨_, ⟨⟩, hchoice⟩ := chooses_self.1 (hI i hi)
    obtain ⟨g, hg, huuid⟩ := List.mem_map.1 hchoice
    obtain ⟨hg, hroom⟩ := List.mem_filter.1 hg
    obtain rfl := hs.eq_of_uuid (hgs hg) hh huuid
    have hmembers : g.servers.length < maxGroupMembers := of_decide_eq_true hroom
    have hcard := hcrowd I fun j hj => by
      obtain ⟨alloc, halloc, -⟩ := hI j hj
      rw [halloc]
      rfl
    omega
  · exact hw h hh hkeyed I fun j hj => (hI j hj).of_ne (ne_of_mem_of_not_mem hj hi)

/-- A new group is empty, and only the operation that made it can choose it. -/
theorem Capped.open {g : ServerGroup} (hw : w.Capped K)
    (hcurrent : ∀ j alloc, w.notes j = some alloc → alloc.Current w.fleet.world)
    (hgroups : t.groups = w.fleet.world.groups ++ [g]) (hfresh : g.uuid ∉ w.fleet.world.groupIds)
    (hservers : g.servers = []) :
    (w.after i p t ((w.notes i).map fun alloc => { alloc with opened := some g })).Capped K := by
  intro h hh hkeyed I hI
  replace hh : h ∈ w.fleet.world.groups ++ [g] := hgroups ▸ hh
  rcases List.mem_append.1 hh with hh | hh
  · refine hw h hh hkeyed I fun j hj => (hI j hj).of_ne ?_
    rintro rfl
    obtain ⟨_, halloc, hchoice⟩ := chooses_self.1 (hI j hj)
    obtain ⟨_, -, rfl⟩ := Option.map_eq_some_iff.1 halloc
    exact hfresh (List.mem_singleton.1 hchoice ▸ List.mem_map_of_mem hh)
  · obtain rfl := List.mem_singleton.1 hh
    have hI' : I ⊆ {i} := by
      intro j hj
      by_contra hne
      obtain ⟨alloc, halloc, hchoice⟩ := (hI j hj).of_ne (by simpa using hne)
      exact hfresh ((hcurrent j alloc halloc).mem_groupIds hchoice)
    have hcard := Finset.card_le_card hI'
    rw [Finset.card_singleton] at hcard
    rw [hservers, List.length_nil]
    unfold maxGroupMembers
    omega

/-- A new server takes the place that was counted for it. -/
theorem Capped.place {uuids : List String} (hw : w.Capped K)
    (hgroups : ∀ h ∈ t.groups, ∃ g ∈ w.fleet.world.groups, g.GrownBy (uuids.count g.uuid) h)
    (hnamed : ∀ g ∈ w.fleet.world.groups, g.keyed = true →
      uuids.count g.uuid ≤ 1 ∧ (g.uuid ∈ uuids → w.Chooses g.uuid i)) :
    (w.after i p t none).Capped K := by
  intro h hh hkeyed I hI
  obtain ⟨g, hg, hgrown⟩ := hgroups h hh
  have hkeyed' := ServerGroup.keyed_congr hgrown.label ▸ hkeyed
  have hI' : ∀ j ∈ I, j ≠ i ∧ w.Chooses g.uuid j := fun j hj => hgrown.uuid ▸ (hI j hj).before
  obtain ⟨hone, hchoice⟩ := hnamed g hg hkeyed'
  have hservers := hgrown.servers
  by_cases hmem : g.uuid ∈ uuids
  · have hi : i ∉ I := fun hi => (hI' i hi).1 rfl
    have hroom := hw g hg hkeyed' (insert i I) fun j hj => by
      rcases Finset.mem_insert.1 hj with rfl | hj
      · exact hchoice hmem
      · exact (hI' j hj).2
    rw [Finset.card_insert_of_notMem hi] at hroom
    omega
  · have hroom := hw g hg hkeyed' I fun j hj => (hI' j hj).2
    rw [List.count_eq_zero_of_not_mem hmem] at hservers
    omega

end Capped

/-- An answer leaves the groups of a key room for what may still be placed. -/
theorem Sound.capped_call (hw : Sound admits K w) {c : Call} {r : c.Answer}
    (hi : w.fleet.AboutTo i c) (hr : w.fleet.world.Answers c r t)
    (hcrowd : (w.after i p t (notebook.note (w.notes i) c r)).Allocating K) :
    (w.after i p t (notebook.note (w.notes i) c r)).Capped K := by
  rcases c.ungrouped_or with hun | ⟨filter, rfl⟩ | ⟨request, rfl⟩ | ⟨request, rfl⟩
  · rw [hun.note r]
    refine hw.capped.of_shrunk (hr.shrunk ?_ ?_) fun uuid j hj => ?_
    · rintro _ rfl
      exact hun
    · rintro _ rfl
      exact hun
    · by_cases hji : j = i
      · subst hji
        exact chooses_self.1 hj
      · exact hj.of_ne hji
  · cases hok : (r : Except Cloud.Error (List ServerGroup)) with
    | error e =>
      subst hok
      exact hw.capped.of_shrunk (hr.shrunk (by rintro _ ⟨⟩) (by rintro _ ⟨⟩))
        fun _ _ hj => hj.before.2
    | ok gs =>
      subst hok
      obtain ⟨rfl, hstore⟩ := Store.Serves.listed_groups hr rfl
      exact hw.capped.look hw.distinct hstore.groups (fun _ => List.mem_of_mem_filter) hcrowd
  · cases hok : (r : Except Cloud.Error ServerGroup) with
    | error e =>
      subst hok
      exact hw.capped.of_shrunk (Store.Serves.grown hr (.inl ⟨e, rfl⟩)).2 fun _ _ hj => hj.before.2
    | ok g =>
      subst hok
      obtain ⟨hgroups, huuid, hservers, -⟩ := Store.Serves.added hr rfl
      exact hw.capped.open hw.current hgroups (huuid ▸ hw.distinct.identifier_fresh) hservers
  · have hgrown := (Store.Serves.grown hr (.inr (by rintro _ ⟨⟩))).2
    exact hw.capped.place hgrown fun g hg hkeyed => hw.named hi hg hkeyed

theorem current_after (hw : ∀ j alloc, w.notes j = some alloc → alloc.Current w.fleet.world)
    (hlabels : w.fleet.world.labels ⊆ t.labels) (hν : ∀ alloc, ν = some alloc → alloc.Current t) :
    ∀ j alloc, (w.after i p t ν).notes j = some alloc → alloc.Current t := by
  intro j alloc halloc
  by_cases hj : j = i
  · subst hj
    exact hν alloc (by simpa [after] using halloc)
  · exact (hw j alloc (by simpa [after, hj] using halloc)).mono hlabels

theorem sound_step (h : Step admits K w w') (hw : Sound admits K w) : Sound admits K w' := by
  obtain ⟨hstep, hcrowd, hunnamed⟩ := h
  have hkept : w'.Kept notebook fun m : { m // admits m } => protocol m.1 := by
    refine Watched.kept_step Store.Answers.honest ?_ hstep hw.kept
    rintro i u p ⟨a, m, hm, rfl | rfl⟩
    · exact ⟨⟨m, hm⟩, create_keeps_placement a m⟩
    · exact ⟨⟨m, hm⟩, delete_keeps_placement a m⟩
  -- Before its first call and after its last, an operation allocates nothing.
  have hforget : ∀ i p, (∀ j alloc, (w.after i p w.fleet.world none).notes j = some alloc →
      alloc.Current w.fleet.world) ∧ (w.after i p w.fleet.world none).Capped K := by
    intro i p
    refine ⟨current_after hw.current (List.Subset.refl _) (by rintro _ ⟨⟩), ?_⟩
    exact hw.capped.of_shrunk (fun g hg => ⟨g, hg, .refl 0 g⟩) fun _ _ hj => hj.before.2
  cases hstep with
  | @start i p _ _ =>
    exact ⟨hkept, hw.distinct, hunnamed, (hforget i (some p)).1, (hforget i (some p)).2⟩
  | @finish i a _ =>
    exact ⟨hkept, hw.distinct, hunnamed, (hforget i none).1, (hforget i none).2⟩
  | @call i c next r u hi hr =>
    have habout : w.fleet.AboutTo i c := ⟨next, hi⟩
    obtain ⟨⟨m, hm⟩, hallowed⟩ := hw.kept.allowed habout hr.honest
    have hnoted := Allocation.current_note hw.distinct hr hallowed (hw.current i)
    exact ⟨hkept, hr.distinct hw.distinct, hunnamed,
      current_after hw.current hr.labels_subset hnoted, hw.capped_call habout hr hcrowd⟩
  | move _ hu => exact hu.elim

theorem sound_reachable (h : Reachable admits K s w)
    (hs : Sound admits K (Watched.idle notebook s : Placements ι)) : Sound admits K w := by
  induction h with
  | refl => exact hs
  | tail _ hstep ih => exact sound_step hstep ih

end Placements

variable [DecidableEq ι]

/-- However creates and deletes are interleaved and whichever calls fail, a group of a key has at
most three servers and one more for each create that may allocate at a time. A group that an
allocation saw full gets no server from it. -/
theorem keyed_groups_capped (admits : Machine → Prop) (hK : 1 ≤ K) (hs : s.Distinct)
    (hmembers : ∀ g ∈ s.groups, g.keyed = true → g.servers.length ≤ 4) (hunnamed : Unnamed admits s)
    {w : Placements ι} (h : Placements.Reachable admits K s w) :
    (∀ g ∈ w.fleet.world.groups, g.keyed = true → g.servers.length ≤ 3 + K) ∧
      ∀ i request alloc, w.fleet.AboutTo i (.cloud (.createServer request)) →
        w.notes i = some alloc → ∀ g ∈ alloc.seen, 4 ≤ g.servers.length →
          g.uuid ∉ request.groups ∧
            ∀ r t, w.fleet.world.Answers (.cloud (.createServer request)) r t →
              ∀ h ∈ w.fleet.world.groups, h.uuid = g.uuid → h ∈ t.groups := by
  have hw := Placements.sound_reachable h (Placements.sound_idle hK hs hunnamed hmembers)
  refine ⟨fun g hg hkeyed => ?_, fun i request alloc hi halloc g hg hfull => ?_⟩
  · have hroom := hw.capped g hg hkeyed ∅ (by simp)
    rw [Finset.card_empty] at hroom
    unfold maxGroupMembers at hroom
    omega
  · have hcurrent := hw.current i alloc halloc
    obtain ⟨hlabel, hkeyed⟩ := hcurrent.seen g hg
    have hnot : g.uuid ∉ request.groups := by
      intro hmem
      obtain ⟨h, hh, hhg⟩ := List.mem_map.1 hlabel
      have huuid : h.uuid = g.uuid := congrArg Prod.fst hhg
      obtain ⟨alloc', halloc', hchoice⟩ :=
        (hw.named hi hh (ServerGroup.keyed_congr hhg ▸ hkeyed)).2 (huuid ▸ hmem)
      obtain rfl := Option.some.inj (halloc.symm.trans halloc')
      exact hcurrent.full g hg hfull (huuid ▸ hchoice)
    refine ⟨hnot, fun r t hr h hh huuid => ?_⟩
    cases hok : (r : Except Cloud.Error Cloud.Server) with
    | error e =>
      subst hok
      exact (Store.Serves.untouched hr rfl).groups ▸ hh
    | ok x =>
      subst hok
      rw [(Store.Serves.created hr rfl).2.2.1]
      exact Store.mem_foldl_joinGroup hh (huuid ▸ hnot)

theorem distinct_threeMembers : Placements.threeMembers.Distinct := by
  refine ⟨List.nodup_singleton _, fun uuid huuid n hn => ?_⟩
  obtain rfl := List.mem_singleton.1 huuid
  intro heq
  have hone : 1 = n := Store.identifier_injective heq
  have hissued : 4 < n := hn
  omega

/-- Two creates that both see three members leave five, and no more is possible. -/
theorem keyed_groups_capped_race : ∃ w : Placements (Fin 2),
    w.fleet.world.groups.map (·.servers.length) = [5] ∧
      ∀ g ∈ w.fleet.world.groups, g.keyed = true → g.servers.length ≤ 3 + 2 := by
  obtain ⟨w, hw, hfive⟩ := Placements.race_overfills 2
  refine ⟨w, hfive, (keyed_groups_capped Placements.Keyed (by decide) distinct_threeMembers ?_
    (Placements.keyed_unnamed _) hw).1⟩
  intro g hg _
  obtain rfl := List.mem_singleton.1 hg
  decide

end MachineProvider
