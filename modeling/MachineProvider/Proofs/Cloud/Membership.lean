import Mathlib.Logic.Relation
import MachineProvider.Proofs.Cloud.Groups

/-! Who is in which group is kept twice, with the group and with the server. Both say the same in
every store that calls lead to, as long as no request names a group before it is made. -/
namespace MachineProvider.Cloud

/-- How often a group lists a server. -/
def ServerGroup.listings (g : ServerGroup) (uuid : String) : Nat :=
  (g.servers.map (·.uuid)).count uuid

/-- How often a server names a group. -/
def Server.namings (x : Server) (uuid : String) : Nat := (x.groups.map (·.uuid)).count uuid

/-- No group is asked for under an identifier that is still to be given out. -/
def Call.NamesIssued (s : Store) : Call → Prop
  | .createServer request => ∀ uuid ∈ request.groups, ∀ n, s.issued < n → uuid ≠ Store.identifier n
  | _ => True

namespace Store

variable {s t : Store} {c : Call} {uuid : String} {stub : ServerStub} {gs : List ServerGroup}
  {g h : ServerGroup} {x : Server}

/-- What can happen to a store: a call that is answered or fails, a kind of call that fails from now
on, and volumes that are hidden for longer or shorter from now on. -/
inductive Step (s : Store) : Store → Prop
  | call {c : Call} {r : Except Error c.Result} {t : Store} (h : s.Serves c r t)
      (hnames : c.NamesIssued s) : Step s t
  | fail (operation : Operation) (text : String) : Step s (s.fail operation text)
  | delay (reads : Nat) : Step s { s with volumeDelay := reads }

/-- A store that an empty one becomes. -/
def Reachable (s : Store) : Prop := Relation.ReflTransGen Step empty s

section Joining

theorem uuids_joinGroup (uuid : String) (stub : ServerStub) (gs : List ServerGroup) :
    (joinGroup uuid stub gs).map (·.uuid) = gs.map (·.uuid) := by
  have hlabels := congrArg (List.map Prod.fst) (labels_joinGroup uuid stub gs)
  simpa [ServerGroup.label, Function.comp_def] using hlabels

/-- Among groups with identifiers of their own, the one that is named gains a member
and no other. -/
theorem eq_of_mem_joinGroup (hn : (gs.map (·.uuid)).Nodup) (hh : h ∈ joinGroup uuid stub gs) :
    ∃ g ∈ gs, h =
      { g with servers := g.servers ++ List.replicate (if uuid = g.uuid then 1 else 0) stub } := by
  rcases joinGroup_cases uuid stub gs with ⟨hne, heq⟩ | ⟨before, g, after, hbefore, hg, rfl, heq⟩
  · rw [heq] at hh
    exact ⟨h, hh, by simp [(hne h hh).symm]⟩
  · rw [heq, List.mem_append, List.mem_cons] at hh
    rcases hh with hh | rfl | hh
    · exact ⟨h, by simp [hh], by simp [(hbefore h hh).symm]⟩
    · exact ⟨g, by simp, by simp [hg]⟩
    · have hlater : g.uuid ∉ after.map (·.uuid) := by
        rw [List.map_append, List.map_cons] at hn
        exact (List.nodup_cons.1 (List.nodup_append.1 hn).2.1).1
      have hne : uuid ≠ h.uuid := fun heq => hlater (List.mem_map.2 ⟨h, hh, (hg.trans heq).symm⟩)
      exact ⟨h, by simp [hh], by simp [hne]⟩

/-- A group gains a member as often as it is named. -/
theorem eq_of_mem_foldl {uuids : List String} (hn : (gs.map (·.uuid)).Nodup)
    (hh : h ∈ uuids.foldl (fun gs uuid => joinGroup uuid stub gs) gs) :
    ∃ g ∈ gs, h = { g with servers := g.servers ++ List.replicate (uuids.count g.uuid) stub } := by
  induction uuids generalizing gs with
  | nil => exact ⟨h, hh, by simp⟩
  | cons uuid uuids ih =>
    obtain ⟨f, hf, rfl⟩ := ih (uuids_joinGroup uuid stub gs ▸ hn) hh
    obtain ⟨g, hg, rfl⟩ := eq_of_mem_joinGroup hn hf
    refine ⟨g, hg, ?_⟩
    by_cases huuid : uuid = g.uuid
    · simp [huuid, List.replicate_succ]
    · simp [huuid]

@[simp] theorem member_uuid (uuid : String) : (member uuid).uuid = uuid := rfl

theorem listings_append (g : ServerGroup) (count : Nat) (stub : ServerStub) (uuid : String) :
    ServerGroup.listings { g with servers := g.servers ++ List.replicate count stub } uuid =
      g.listings uuid + if stub.uuid = uuid then count else 0 := by
  simp [ServerGroup.listings, List.count_replicate]

theorem listings_leaveGroup (uuid : String) (g : ServerGroup) (other : String) :
    (leaveGroup uuid g).listings other = if other = uuid then 0 else g.listings other := by
  simp only [ServerGroup.listings, leaveGroup, List.count_eq_countP, List.countP_map,
    List.countP_filter]
  split
  · next heq =>
    subst heq
    exact List.countP_eq_zero.2 fun y _ => by simp
  · next hne =>
    refine List.countP_congr fun y _ => ?_
    simp only [Function.comp_apply, Bool.and_eq_true, beq_iff_eq, decide_eq_true_eq]
    exact ⟨And.left, fun heq => ⟨heq, heq ▸ hne⟩⟩

end Joining

/-- A new server names the groups it was asked for. -/
theorem newborn_groups (s : Store) (request : ServerRequest) :
    (s.newborn request).groups.map (·.uuid) = request.groups := by
  refine List.map_map.trans ((List.map_congr_left fun uuid _ => ?_).trans (List.map_id _))
  simp only [Function.comp_apply, groupStub]
  split <;> rfl

/-- Members and groups agree, and no identifier that is still to come is in use anywhere. -/
structure Agreed (s : Store) : Prop where
  groups : s.Distinct
  servers : (s.servers.map (·.uuid)).Nodup
  unissued : ∀ x ∈ s.servers, ∀ n, s.issued < n → x.uuid ≠ identifier n
  unnamed : ∀ x ∈ s.servers, ∀ stub ∈ x.groups, ∀ n, s.issued < n → stub.uuid ≠ identifier n
  agree : ∀ g ∈ s.groups, ∀ x ∈ s.servers, g.listings x.uuid = x.namings g.uuid
  absent : ∀ g ∈ s.groups, ∀ uuid, (∀ x ∈ s.servers, x.uuid ≠ uuid) → g.listings uuid = 0

namespace Agreed

theorem empty : Store.empty.Agreed :=
  ⟨⟨List.nodup_nil, by rintro _ ⟨⟩⟩, List.nodup_nil, by rintro _ ⟨⟩, by rintro _ ⟨⟩, by rintro _ ⟨⟩,
    by rintro _ ⟨⟩⟩

theorem kept (hs : s.Agreed) (hdistinct : t.Distinct) (hservers : t.servers = s.servers)
    (hgroups : t.groups = s.groups) (hissued : s.issued ≤ t.issued) : t.Agreed where
  groups := hdistinct
  servers := hservers ▸ hs.servers
  unissued x hx n hn := hs.unissued x (hservers ▸ hx) n (Nat.lt_of_le_of_lt hissued hn)
  unnamed x hx stub hstub n hn :=
    hs.unnamed x (hservers ▸ hx) stub hstub n (Nat.lt_of_le_of_lt hissued hn)
  agree g hg x hx := hs.agree g (hgroups ▸ hg) x (hservers ▸ hx)
  absent g hg uuid h := hs.absent g (hgroups ▸ hg) uuid (hservers ▸ h)

/-- A new server is listed as often as it names a group: nobody was listed under its identifier. -/
theorem created (hs : s.Agreed) (hdistinct : t.Distinct) {request : ServerRequest}
    (hnames : (Call.createServer request).NamesIssued s)
    (hservers : t.servers = s.servers ++ [s.newborn request])
    (hgroups : t.groups = request.groups.foldl
      (fun gs g => joinGroup g (member (s.newborn request).uuid) gs) s.groups)
    (hissued : t.issued = s.issued + 2) : t.Agreed := by
  have hnew : ∀ x ∈ s.servers, x.uuid ≠ (s.newborn request).uuid := fun x hx =>
    hs.unissued x hx _ (Nat.lt_succ_self _)
  refine ⟨hdistinct, ?_, fun x hx n hn => ?_, fun x hx stub hstub n hn => ?_, fun h hh x hx => ?_,
    fun h hh uuid hnone => ?_⟩
  · rw [hservers, List.map_append, List.nodup_append]
    refine ⟨hs.servers, List.nodup_singleton _, fun uuid huuid other hother => ?_⟩
    obtain ⟨x, hx, rfl⟩ := List.mem_map.1 huuid
    obtain rfl : other = (s.newborn request).uuid := by simpa using hother
    exact hnew x hx
  · rw [hservers] at hx
    rcases List.mem_append.1 hx with hx | hx
    · exact hs.unissued x hx n (by omega)
    · obtain rfl := List.mem_singleton.1 hx
      intro heq
      have := identifier_injective heq
      omega
  · rw [hservers] at hx
    rcases List.mem_append.1 hx with hx | hx
    · exact hs.unnamed x hx stub hstub n (by omega)
    · obtain rfl := List.mem_singleton.1 hx
      exact hnames stub.uuid (newborn_groups s request ▸ List.mem_map_of_mem hstub) n (by omega)
  · rw [hgroups] at hh
    obtain ⟨g, hg, rfl⟩ := eq_of_mem_foldl hs.groups.nodup hh
    rw [listings_append, member_uuid]
    rw [hservers] at hx
    rcases List.mem_append.1 hx with hx | hx
    · rw [if_neg (hnew x hx).symm, Nat.add_zero]
      exact hs.agree g hg x hx
    · obtain rfl := List.mem_singleton.1 hx
      rw [if_pos rfl, hs.absent g hg _ hnew, Nat.zero_add, Server.namings, newborn_groups]
  · rw [hservers] at hnone
    rw [hgroups] at hh
    obtain ⟨g, hg, rfl⟩ := eq_of_mem_foldl hs.groups.nodup hh
    have hother : (s.newborn request).uuid ≠ uuid := hnone _ (by simp)
    rw [listings_append, member_uuid, if_neg hother,
      hs.absent g hg uuid fun x hx => hnone x (List.mem_append_left _ hx)]

/-- A server that is deleted is listed nowhere any more. -/
theorem deleted (hs : s.Agreed) (hdistinct : t.Distinct)
    (hservers : t.servers = s.servers.filter (·.uuid ≠ uuid))
    (hgroups : t.groups = s.groups.map (leaveGroup uuid)) (hissued : s.issued ≤ t.issued) :
    t.Agreed := by
  have hold : ∀ x ∈ t.servers, x ∈ s.servers ∧ x.uuid ≠ uuid := by
    intro x hx
    rw [hservers] at hx
    simpa using List.mem_filter.1 hx
  refine ⟨hdistinct, ?_, fun x hx n hn => ?_, fun x hx stub hstub n hn => ?_, fun h hh x hx => ?_,
    fun h hh other hnone => ?_⟩
  · rw [hservers]
    exact (List.filter_sublist.map _).nodup hs.servers
  · exact hs.unissued x (hold x hx).1 n (Nat.lt_of_le_of_lt hissued hn)
  · exact hs.unnamed x (hold x hx).1 stub hstub n (Nat.lt_of_le_of_lt hissued hn)
  · rw [hgroups] at hh
    obtain ⟨g, hg, rfl⟩ := List.mem_map.1 hh
    rw [listings_leaveGroup, if_neg (hold x hx).2]
    exact hs.agree g hg x (hold x hx).1
  · rw [hgroups] at hh
    obtain ⟨g, hg, rfl⟩ := List.mem_map.1 hh
    rw [listings_leaveGroup]
    split
    · rfl
    · next hne =>
      refine hs.absent g hg other fun x hx heq => hnone x ?_ heq
      rw [hservers]
      exact List.mem_filter.2 ⟨hx, by simpa [heq] using hne⟩

/-- A new group has no members, and no server names it yet. -/
theorem opened (hs : s.Agreed) (hdistinct : t.Distinct) (hservers : t.servers = s.servers)
    (hgroups : t.groups = s.groups ++ [g]) (huuid : g.uuid = identifier (s.issued + 1))
    (hempty : g.servers = []) (hissued : s.issued ≤ t.issued) : t.Agreed := by
  have hnone : ∀ uuid, g.listings uuid = 0 := by
    intro uuid
    simp [ServerGroup.listings, hempty]
  have hunnamed : ∀ x ∈ s.servers, x.namings g.uuid = 0 := by
    intro x hx
    refine List.count_eq_zero.2 fun hmem => ?_
    obtain ⟨stub, hstub, heq⟩ := List.mem_map.1 hmem
    exact hs.unnamed x hx stub hstub _ (Nat.lt_succ_self _) (heq.trans huuid)
  refine ⟨hdistinct, hservers ▸ hs.servers, fun x hx n hn => ?_, fun x hx stub hstub n hn => ?_,
    fun h hh x hx => ?_, fun h hh uuid hno => ?_⟩
  · exact hs.unissued x (hservers ▸ hx) n (Nat.lt_of_le_of_lt hissued hn)
  · exact hs.unnamed x (hservers ▸ hx) stub hstub n (Nat.lt_of_le_of_lt hissued hn)
  · rw [hservers] at hx
    rw [hgroups] at hh
    rcases List.mem_append.1 hh with hh | hh
    · exact hs.agree h hh x hx
    · obtain rfl := List.mem_singleton.1 hh
      rw [hnone, hunnamed x hx]
  · rw [hgroups] at hh
    rcases List.mem_append.1 hh with hh | hh
    · exact hs.absent h hh uuid (hservers ▸ hno)
    · obtain rfl := List.mem_singleton.1 hh
      exact hnone uuid

theorem serves (hs : s.Agreed) {r : Except Error c.Result} (hc : s.Serves c r t)
    (hnames : c.NamesIssued s) : t.Agreed := by
  have hdistinct := hs.groups.serves hc
  have hissued := hc.issued_le
  cases r with
  | error e =>
    have hsame := hc.untouched rfl
    exact hs.kept hdistinct hsame.servers hsame.groups hissued
  | ok a =>
    cases c with
    | createServer request =>
      obtain ⟨-, hservers, hgroups, -, hissued⟩ := hc.created rfl
      exact hs.created hdistinct hnames hservers hgroups hissued
    | deleteServer uuid =>
      obtain ⟨hservers, hgroups, -⟩ := hc.removed rfl
      exact hs.deleted hdistinct hservers hgroups hissued
    | createGroup request =>
      obtain ⟨hgroups, huuid, hempty, -⟩ := hc.added rfl
      exact hs.opened hdistinct (hc.servers_eq (by rintro _ ⟨⟩) (by rintro _ ⟨⟩))
        hgroups huuid hempty
        hissued
    | _ =>
      exact hs.kept hdistinct (hc.servers_eq (by rintro _ ⟨⟩) (by rintro _ ⟨⟩))
        (hc.groups_eq (by rintro _ ⟨⟩) (by rintro _ ⟨⟩) (by rintro _ ⟨⟩)) hissued

theorem step (hs : s.Agreed) (h : Step s t) : t.Agreed := by
  cases h with
  | call hc hnames => exact hs.serves hc hnames
  | fail operation text =>
    exact hs.kept ⟨hs.groups.nodup, hs.groups.fresh⟩ rfl rfl (Nat.le_refl _)
  | delay reads => exact hs.kept ⟨hs.groups.nodup, hs.groups.fresh⟩ rfl rfl (Nat.le_refl _)

theorem reachable (h : s.Reachable) : s.Agreed := by
  induction h with
  | refl => exact empty
  | tail _ hstep ih => exact ih.step hstep

end Agreed

/-- Wherever calls lead, servers have identifiers of their own, a group lists a server as
often as that server names the group, it lists nobody else, and a call that fails leaves all
this as it is. -/
theorem memberships_agree (h : s.Reachable) :
    (s.servers.map (·.uuid)).Nodup ∧
    (∀ g ∈ s.groups, (∀ x ∈ s.servers, g.listings x.uuid = x.namings g.uuid) ∧
      ∀ uuid, (∀ x ∈ s.servers, x.uuid ≠ uuid) → g.listings uuid = 0) ∧
    ∀ (c : Call) (e : Error) (t : Store), s.Serves c (.error e) t → s.Untouched t := by
  have hs := Agreed.reachable h
  exact ⟨hs.servers, fun g hg => ⟨hs.agree g hg, hs.absent g hg⟩, fun _ _ _ hc => hc.untouched rfl⟩

/-- A request that names the first group twice, and one that does not exist. -/
def repeatedRequest : ServerRequest :=
  { (default : ServerRequest) with groups := [identifier 1, identifier 1, "elsewhere"] }

theorem repeatedRequest_namesIssued (h : 1 ≤ s.issued) :
    (Call.createServer repeatedRequest).NamesIssued s := by
  have hfirst : ∀ n, s.issued < n → identifier 1 ≠ identifier n := fun n hn heq => by
    have := identifier_injective heq
    omega
  have helse : ∀ n, "elsewhere" ≠ identifier n := fun n heq => by
    have hchars := congrArg String.toList heq
    simp [identifier, String.toList_append] at hchars
  intro uuid huuid n hn
  simp only [repeatedRequest, List.mem_cons, List.not_mem_nil, or_false] at huuid
  rcases huuid with rfl | rfl | rfl
  · exact hfirst n hn
  · exact hfirst n hn
  · exact helse n

/-- A server that names its group twice is its member twice. -/
theorem memberships_agree_repeated : ∃ s : Store, s.Reachable ∧
    ∃ g ∈ s.groups, ∃ x ∈ s.servers, x.namings g.uuid = 2 ∧ g.listings x.uuid = 2 := by
  have hgroup : Reachable (empty.answer (.createGroup default)).2 :=
    .tail .refl (.call .answered trivial)
  have hserver : Reachable ((empty.answer (.createGroup default)).2.answer
      (.createServer repeatedRequest)).2 :=
    .tail hgroup (.call .answered (repeatedRequest_namesIssued (Nat.le_refl 1)))
  have hlisted := ((memberships_agree hserver).2.1 _ List.mem_cons_self).1 _ List.mem_cons_self
  exact ⟨_, hserver, _, List.mem_cons_self, _, List.mem_cons_self, rfl, hlisted.trans rfl⟩

end Store

end MachineProvider.Cloud
