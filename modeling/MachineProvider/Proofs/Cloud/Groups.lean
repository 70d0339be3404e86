import Mathlib.Data.List.Nodup
import MachineProvider.Proofs.Cloud.Identifiers

/-! How the groups of a store change: they gain members that servers name them for, lose members
with their servers, and are never removed or tagged anew. -/
namespace MachineProvider.Cloud

namespace ServerGroup

def label (g : ServerGroup) : String × Tags := (g.uuid, g.tags)

/-- The second group is the first one later, with so many members more at most. -/
structure GrownBy (n : Nat) (g h : ServerGroup) : Prop where
  label : h.label = g.label
  servers : h.servers.length ≤ g.servers.length + n

theorem GrownBy.uuid {n : Nat} {g h : ServerGroup} (hg : g.GrownBy n h) : h.uuid = g.uuid :=
  congrArg Prod.fst hg.label

theorem GrownBy.refl (n : Nat) (g : ServerGroup) : g.GrownBy n g := ⟨rfl, Nat.le_add_right _ _⟩

end ServerGroup

/-- How often a call names a group for a new server. -/
def Call.names : Call → String → Nat
  | .createServer request, uuid => request.groups.count uuid
  | _, _ => 0

namespace Store

variable {s t : Store} {c : Call} {uuid : String} {stub : ServerStub} {gs : List ServerGroup}
  {g h : ServerGroup}

/-- Identifiers and tags of the groups, in order. -/
def labels (s : Store) : List (String × Tags) := s.groups.map ServerGroup.label

/-- The identifiers of the groups, in order. -/
def groupIds (s : Store) : List String := s.groups.map (·.uuid)

theorem groupIds_eq_labels (s : Store) : s.groupIds = s.labels.map Prod.fst := by
  simp [groupIds, labels, ServerGroup.label]

theorem groupIds_congr (h : t.labels = s.labels) : t.groupIds = s.groupIds := by
  rw [groupIds_eq_labels, groupIds_eq_labels, h]

theorem groupIds_subset (h : s.labels ⊆ t.labels) : s.groupIds ⊆ t.groupIds := by
  rw [groupIds_eq_labels, groupIds_eq_labels]
  exact List.map_subset _ h

section Joining

/-- The first group with the identifier gains the member, if there is one. -/
theorem joinGroup_cases (uuid : String) (stub : ServerStub) (gs : List ServerGroup) :
    ((∀ g ∈ gs, g.uuid ≠ uuid) ∧ joinGroup uuid stub gs = gs) ∨
      ∃ before g after, (∀ f ∈ before, f.uuid ≠ uuid) ∧ g.uuid = uuid ∧ gs = before ++ g :: after ∧
        joinGroup uuid stub gs = before ++ { g with servers := g.servers ++ [stub] } :: after := by
  induction gs with
  | nil => exact .inl ⟨List.forall_mem_nil _, rfl⟩
  | cons g gs ih =>
    by_cases hg : g.uuid = uuid
    · exact .inr ⟨[], g, gs, List.forall_mem_nil _, hg, rfl, if_pos hg⟩
    · have hjoin : joinGroup uuid stub (g :: gs) = g :: joinGroup uuid stub gs := if_neg hg
      rw [hjoin]
      rcases ih with ⟨hne, heq⟩ | ⟨before, f, after, hbefore, hf, rfl, heq⟩
      · exact .inl ⟨List.forall_mem_cons.2 ⟨hg, hne⟩, congrArg (g :: ·) heq⟩
      · exact .inr ⟨g :: before, f, after, List.forall_mem_cons.2 ⟨hg, hbefore⟩, hf, rfl,
          congrArg (g :: ·) heq⟩

theorem labels_joinGroup (uuid : String) (stub : ServerStub) (gs : List ServerGroup) :
    (joinGroup uuid stub gs).map ServerGroup.label = gs.map ServerGroup.label := by
  rcases joinGroup_cases uuid stub gs with ⟨-, heq⟩ | ⟨before, g, after, -, -, rfl, heq⟩
  · rw [heq]
  · rw [heq, List.map_append, List.map_append]
    rfl

theorem labels_foldl_joinGroup (uuids : List String) (stub : ServerStub) (gs : List ServerGroup) :
    (uuids.foldl (fun gs uuid => joinGroup uuid stub gs) gs).map ServerGroup.label =
      gs.map ServerGroup.label := by
  induction uuids generalizing gs with
  | nil => rfl
  | cons uuid uuids ih => exact (ih _).trans (labels_joinGroup uuid stub gs)

theorem labels_createServer (s : Store) (request : ServerRequest) :
    (s.createServer request).2.labels = s.labels := labels_foldl_joinGroup request.groups _ s.groups

theorem grownBy_of_mem_joinGroup (hh : h ∈ joinGroup uuid stub gs) :
    ∃ g ∈ gs, g.GrownBy (if g.uuid = uuid then 1 else 0) h := by
  rcases joinGroup_cases uuid stub gs with ⟨-, heq⟩ | ⟨before, g, after, -, hg, rfl, heq⟩
  · exact ⟨h, heq ▸ hh, .refl _ h⟩
  · rw [heq, List.mem_append, List.mem_cons] at hh
    rcases hh with hh | rfl | hh
    · exact ⟨h, by simp [hh], .refl _ h⟩
    · exact ⟨g, by simp, rfl, by simp [hg]⟩
    · exact ⟨h, by simp [hh], .refl _ h⟩

/-- A group gains at most one member each time it is named. -/
theorem grownBy_of_mem_foldl {uuids : List String}
    (hh : h ∈ uuids.foldl (fun gs uuid => joinGroup uuid stub gs) gs) :
    ∃ g ∈ gs, g.GrownBy (uuids.count g.uuid) h := by
  induction uuids generalizing gs with
  | nil => exact ⟨h, hh, .refl _ h⟩
  | cons uuid uuids ih =>
    obtain ⟨f, hf, hgrown⟩ := ih hh
    obtain ⟨g, hg, hjoined⟩ := grownBy_of_mem_joinGroup hf
    refine ⟨g, hg, hgrown.label.trans hjoined.label, ?_⟩
    have hmembers := hgrown.servers
    have hmembers' := hjoined.servers
    rw [hjoined.uuid] at hmembers
    rw [List.count_cons]
    by_cases heq : g.uuid = uuid
    · simp only [heq, if_true, beq_self_eq_true] at hmembers hmembers' ⊢
      omega
    · have hne : (uuid == g.uuid) = false := by simp [Ne.symm heq]
      simp only [heq, if_false, hne, Bool.false_eq_true] at hmembers hmembers' ⊢
      omega

theorem mem_joinGroup (hg : g ∈ gs) (hne : g.uuid ≠ uuid) : g ∈ joinGroup uuid stub gs := by
  rcases joinGroup_cases uuid stub gs with ⟨-, heq⟩ | ⟨before, f, after, -, hf, rfl, heq⟩
  · rwa [heq]
  · have hgf : g ≠ f := fun h => hne (h ▸ hf)
    rw [List.mem_append, List.mem_cons, or_iff_right hgf] at hg
    rw [heq, List.mem_append, List.mem_cons]
    exact hg.imp_right .inr

/-- A group that is not named stays as it is. -/
theorem mem_foldl_joinGroup {uuids : List String} (hg : g ∈ gs) (hne : g.uuid ∉ uuids) :
    g ∈ uuids.foldl (fun gs uuid => joinGroup uuid stub gs) gs := by
  induction uuids generalizing gs with
  | nil => exact hg
  | cons uuid uuids ih =>
    obtain ⟨hhead, htail⟩ := not_or.1 fun hmem => hne (List.mem_cons.2 hmem)
    exact ih (mem_joinGroup hg hhead) htail

end Joining

section Calls

variable {r : Except Error c.Result}

/-- Unless one is made, every group is an earlier one, grown by as much as the call names it. -/
theorem Serves.grown (hc : s.Serves c r t)
    (hopen : (∃ e, r = .error e) ∨ ∀ request, c ≠ .createGroup request) :
    t.labels = s.labels ∧ ∀ h ∈ t.groups, ∃ g ∈ s.groups, g.GrownBy (c.names g.uuid) h := by
  have hsame : t.groups = s.groups →
      t.labels = s.labels ∧ ∀ h ∈ t.groups, ∃ g ∈ s.groups, g.GrownBy (c.names g.uuid) h := by
    intro hgroups
    refine ⟨by rw [labels, labels, hgroups], fun h hh => ⟨h, hgroups ▸ hh, .refl _ h⟩⟩
  cases r with
  | error e => exact hsame (hc.untouched rfl).groups
  | ok a =>
    have hne := hopen.resolve_left (by rintro ⟨e, ⟨⟩⟩)
    cases c with
    | createServer request =>
      have hgroups := (hc.performed rfl).2.groups
      refine ⟨?_, fun h hh => ?_⟩
      · rw [labels, hgroups]
        exact labels_createServer s request
      · rw [hgroups] at hh
        exact grownBy_of_mem_foldl hh
    | deleteServer uuid =>
      obtain ⟨-, hgroups, -⟩ := hc.removed rfl
      refine ⟨?_, fun h hh => ?_⟩
      · rw [labels, hgroups, List.map_map]
        rfl
      · rw [hgroups] at hh
        obtain ⟨g, hg, rfl⟩ := List.mem_map.1 hh
        exact ⟨g, hg, rfl, Nat.le_trans (List.length_filter_le ..) (Nat.le_add_right _ _)⟩
    | createGroup request => exact absurd rfl (hne request)
    | _ => exact hsame (hc.groups_eq (by rintro _ ⟨⟩) (by rintro _ ⟨⟩) (by rintro _ ⟨⟩))

/-- A new group is the last one, has no members and a fresh identifier. -/
theorem Serves.added {request : GroupRequest} {r : Except Error (Call.createGroup request).Result}
    (hc : s.Serves (.createGroup request) r t) (hr : r = .ok g) :
    t.groups = s.groups ++ [g] ∧ g.uuid = identifier (s.issued + 1) ∧ g.servers = [] ∧
      t.issued = s.issued + 1 := by
  obtain ⟨rfl, hstore⟩ := hc.opened hr
  exact ⟨hstore.groups, rfl, rfl, hstore.issued⟩

/-- No group is ever removed or tagged anew. -/
theorem Serves.labels_subset (hc : s.Serves c r t) : s.labels ⊆ t.labels := by
  cases r with
  | error e => exact (hc.grown (.inl ⟨e, rfl⟩)).1 ▸ List.Subset.refl _
  | ok a =>
    cases c with
    | createGroup request =>
      rw [labels, labels, (hc.added rfl).1, List.map_append]
      exact List.subset_append_left _ _
    | _ => exact (hc.grown (.inr (by rintro _ ⟨⟩))).1 ▸ List.Subset.refl _

theorem Serves.issued_le (hc : s.Serves c r t) : s.issued ≤ t.issued := by
  obtain ⟨calls, h⟩ := hc.performs
  cases h with
  | created request => exact Nat.le_add_right s.issued 2
  | opened request => exact Nat.le_add_right s.issued 1
  | _ => exact Nat.le_refl _

end Calls

/-- Groups are told apart by their identifiers, and will be. -/
structure Distinct (s : Store) : Prop where
  nodup : s.groupIds.Nodup
  fresh : ∀ uuid ∈ s.groupIds, ∀ n, s.issued < n → uuid ≠ identifier n

theorem Distinct.eq_of_uuid (hs : s.Distinct) (hg : g ∈ s.groups) (hh : h ∈ s.groups)
    (huuid : g.uuid = h.uuid) : g = h := List.inj_on_of_nodup_map hs.nodup hg hh huuid

theorem Distinct.identifier_fresh (hs : s.Distinct) : identifier (s.issued + 1) ∉ s.groupIds :=
  fun hmem => hs.fresh _ hmem _ (Nat.lt_succ_self _) rfl

theorem Distinct.serves {r : Except Error c.Result} (hs : s.Distinct) (hc : s.Serves c r t) :
    t.Distinct := by
  have hkept : t.labels = s.labels → t.Distinct := by
    intro hlabels
    have hids := groupIds_congr hlabels
    exact ⟨hids ▸ hs.nodup, fun uuid huuid n hn =>
      hs.fresh uuid (hids ▸ huuid) n (Nat.lt_of_le_of_lt hc.issued_le hn)⟩
  cases r with
  | error e => exact hkept (hc.grown (.inl ⟨e, rfl⟩)).1
  | ok a =>
    cases c with
    | createGroup request =>
      obtain ⟨hgroups, huuid, -, hissued⟩ := hc.added rfl
      have hids : t.groupIds = s.groupIds ++ [identifier (s.issued + 1)] := by
        rw [groupIds, hgroups, ← huuid]
        exact List.map_append
      refine ⟨?_, fun uuid huuid n hn => ?_⟩
      · rw [hids, List.nodup_append]
        refine ⟨hs.nodup, List.nodup_singleton _, fun uuid huuid b hb => ?_⟩
        obtain rfl := List.mem_singleton.1 hb
        exact hs.fresh uuid huuid _ (Nat.lt_succ_self _)
      · rw [hids] at huuid
        rcases List.mem_append.1 huuid with huuid | huuid
        · exact hs.fresh uuid huuid n (by omega)
        · obtain rfl := List.mem_singleton.1 huuid
          intro heq
          have := identifier_injective heq
          omega
    | _ => exact hkept (hc.grown (.inr (by rintro _ ⟨⟩))).1

section Answers

variable {c : MachineProvider.Call} {r : c.Answer}

theorem Answers.labels_subset (hc : s.Answers c r t) : s.labels ⊆ t.labels := by
  cases c with
  | cloud c => exact Serves.labels_subset hc
  | control c => exact hc.2 ▸ List.Subset.refl _
  | _ => exact (show t = s from hc) ▸ List.Subset.refl _

theorem Answers.distinct (hc : s.Answers c r t) (hs : s.Distinct) : t.Distinct := by
  cases c with
  | cloud c => exact hs.serves hc
  | control c => exact hc.2 ▸ hs
  | _ => exact (show t = s from hc) ▸ hs

/-- Only a request for a server brings members, and only a request for a group brings groups. -/
theorem Answers.shrunk (hc : s.Answers c r t)
    (hcreate : ∀ request, c ≠ .cloud (.createServer request))
    (hopen : ∀ request, c ≠ .cloud (.createGroup request)) :
    ∀ h ∈ t.groups, ∃ g ∈ s.groups, g.GrownBy 0 h := by
  have hsame : t = s → ∀ h ∈ t.groups, ∃ g ∈ s.groups, g.GrownBy 0 h := by
    rintro rfl h hh
    exact ⟨h, hh, .refl 0 h⟩
  cases c with
  | cloud c =>
    have hnames : ∀ uuid, c.names uuid = 0 := by
      intro uuid
      cases c with
      | createServer request => exact absurd rfl (hcreate request)
      | _ => rfl
    obtain ⟨-, hgrown⟩ := Serves.grown hc (.inr fun request h => hopen request (by rw [h]))
    intro h hh
    obtain ⟨g, hg, hgh⟩ := hgrown h hh
    exact ⟨g, hg, hnames g.uuid ▸ hgh⟩
  | control c => exact hsame hc.2
  | _ => exact hsame hc

end Answers

end Store

end MachineProvider.Cloud
