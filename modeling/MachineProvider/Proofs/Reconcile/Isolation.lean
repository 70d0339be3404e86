import Mathlib.Data.List.Nodup
import MachineProvider.Proofs.Cloud.Identifiers
import MachineProvider.Proofs.Reconcile.Endings
import MachineProvider.Proofs.Reconcile.Worlds

/-! A pass over a machine leaves alone whatever is not its server's. -/
namespace MachineProvider

open Cloud (Server ServerGroup ServerRequest ServerStub Store)

variable {i : Identity} {m : Machine} {s t : Store} {k l : Cluster}

/-- Whether a server of the identity is in the store under an identifier. -/
def Cloud.Store.holds (s : Store) (i : Identity) (uuid : String) : Bool :=
  s.servers.any fun x => i.owns x.tags && x.uuid == uuid

/-- The members of a group that are no servers of the identity. -/
def Cloud.Store.strangers (s : Store) (i : Identity) (g : ServerGroup) : List ServerStub :=
  g.servers.filter fun x => !s.holds i x.uuid

/-- Two groups that are the same but for their members. -/
def Cloud.ServerGroup.Alike (g h : ServerGroup) : Prop := { h with servers := g.servers } = g

/-- What is not the identity's is as it was: the other servers, the groups with the other members in
them, and the tags of the volumes of others. -/
structure Isolated (i : Identity) (s t : Store) : Prop where
  servers : t.servers.filter (fun x => !i.owns x.tags) = s.servers.filter (fun x => !i.owns x.tags)
  groups : ∀ (n : Nat) (g : ServerGroup), s.groups[n]? = some g →
    ∃ h, t.groups[n]? = some h ∧ g.Alike h ∧ t.strangers i h = s.strangers i g
  volumeTags : ∀ uuid, (∀ x ∈ t.servers, i.owns x.tags = true → ∀ v ∈ x.volumes, v.uuid ≠ uuid) →
    t.volumeTags.get? uuid = s.volumeTags.get? uuid

section Parts

theorem strangers_congr (h : t.servers = s.servers) (g : ServerGroup) :
    t.strangers i g = s.strangers i g := by
  simp [Store.strangers, Store.holds, h]

theorem isolated_of_kept (hservers : t.servers = s.servers)
    (hgroups : ∀ (n : Nat) (g : ServerGroup), s.groups[n]? = some g → t.groups[n]? = some g)
    (hvolumes : t.volumeTags = s.volumeTags) : Isolated i s t where
  servers := by rw [hservers]
  groups n g hg := ⟨g, hgroups n g hg, rfl, strangers_congr hservers g⟩
  volumeTags uuid _ := by rw [hvolumes]

theorem isolated_of_untouched (h : s.Untouched t) : Isolated i s t :=
  isolated_of_kept h.servers (fun _ _ hg => h.groups ▸ hg) h.volumeTags

/-- Joining adds members to groups and does nothing else to them. -/
theorem getElem?_joinGroup (uuid : String) (stub : ServerStub) {gs : List ServerGroup} {n : Nat}
    {g : ServerGroup} (h : gs[n]? = some g) :
    (Store.joinGroup uuid stub gs)[n]? = some g ∨
      (Store.joinGroup uuid stub gs)[n]? = some { g with servers := g.servers ++ [stub] } := by
  induction gs generalizing n with
  | nil => simp at h
  | cons f fs ih =>
    unfold Store.joinGroup
    split
    · cases n with
      | zero =>
        obtain rfl : f = g := by simpa using h
        exact .inr rfl
      | succ n => exact .inl (by simpa using h)
    · cases n with
      | zero => exact .inl (by simpa using h)
      | succ n => exact ih (by simpa using h)

theorem getElem?_foldl_joinGroup (uuids : List String) (stub : ServerStub) {gs : List ServerGroup}
    {n : Nat} {g : ServerGroup} (h : gs[n]? = some g) :
    ∃ count, (uuids.foldl (fun gs uuid => Store.joinGroup uuid stub gs) gs)[n]? =
      some { g with servers := g.servers ++ List.replicate count stub } := by
  induction uuids generalizing gs g with
  | nil => exact ⟨0, by simpa using h⟩
  | cons uuid uuids ih =>
    rcases getElem?_joinGroup uuid stub h with hg | hg
    · exact ih hg
    · obtain ⟨count, hcount⟩ := ih hg
      refine ⟨count + 1, hcount.trans ?_⟩
      simp [List.replicate_succ]

/-- A new server of the identity is a stranger nowhere. -/
theorem isolated_of_created {request : ServerRequest} {u : Store} (hs : s.Unissued)
    (hservers : t.servers = s.servers) (hvolumes : t.volumeTags = s.volumeTags)
    (hissued : s.issued ≤ t.issued)
    (hgroups : ∀ (n : Nat) (g : ServerGroup), s.groups[n]? = some g → t.groups[n]? = some g)
    (howns : i.owns request.tags = true)
    (hu : (t.createServer request).2.Tagged (t.newborn request).uuid u) : Isolated i s u := by
  have hlist : u.servers = s.servers ++ [t.newborn request] := by
    rw [hu.servers, ← hservers]
    rfl
  obtain ⟨-, hfind⟩ := hs.find?_newborn hservers hissued request
  refine ⟨?_, fun n g hg => ?_, fun uuid hv => ?_⟩
  · have hown : (!i.owns (t.newborn request).tags) = false := by
      rw [Bool.not_eq_false']
      exact howns
    rw [hlist, List.filter_append, List.filter_cons_of_neg (by simp [hown]), List.filter_nil,
      List.append_nil]
  · obtain ⟨count, hcount⟩ := getElem?_foldl_joinGroup request.groups
      (Store.member (t.newborn request).uuid) (hgroups n g hg)
    refine ⟨_, (congrArg (·[n]?) hu.groups).trans hcount, rfl, ?_⟩
    have hholds : ∀ uuid, u.holds i uuid =
        (s.holds i uuid || (t.newborn request).uuid == uuid) := by
      intro uuid
      have hown : i.owns (t.newborn request).tags = true := howns
      simp [Store.holds, hlist, hown]
    have hnew : (List.replicate count (Store.member (t.newborn request).uuid)).filter
        (fun x => !u.holds i x.uuid) = [] := by
      refine List.filter_eq_nil_iff.2 fun x hx => ?_
      obtain rfl := List.eq_of_mem_replicate hx
      simp [hholds, Store.member]
    have hold : g.servers.filter (fun x => !u.holds i x.uuid) =
        g.servers.filter (fun x => !s.holds i x.uuid) := by
      refine List.filter_congr fun x hx => ?_
      have hne : (t.newborn request).uuid ≠ x.uuid := fun h => hs.members g
        (List.mem_of_getElem? hg) x hx _ (Nat.lt_succ_of_le hissued) h.symm
      simp [hholds, hne]
    unfold Store.strangers
    rw [List.filter_append, hnew, List.append_nil, hold]
  · refine (hu.volumeTags uuid fun x hx => ?_).trans (congrArg (fun v => v.get? uuid) hvolumes)
    obtain rfl : t.newborn request = x := Option.some.inj (hfind.symm.trans hx)
    exact hv _ (by simp [hlist]) howns

theorem holds_eq_bearers (hcluster : i.clusterId ≠ "") (s : Store) (uuid : String) :
    s.holds i uuid = (s.bearers i).any (·.uuid == uuid) := by
  simp [Store.holds, Store.bearers, List.any_filter, Identity.owns_eq_carriedBy hcluster]

/-- The server that is removed leaves its groups, and nobody else does. -/
theorem isolated_of_removed (hcluster : i.clusterId ≠ "") (hnodup : (s.servers.map (·.uuid)).Nodup)
    {x : Server} (hx : s.bearers i = [x])
    (hservers : t.servers = s.servers.filter (·.uuid ≠ x.uuid))
    (hgroups : t.groups = s.groups.map (Store.leaveGroup x.uuid))
    (hvolumes : t.volumeTags = s.volumeTags) : Isolated i s t := by
  have hmem : x ∈ s.servers ∧ i.carriedBy x.tags = true := Store.mem_bearers.1 (by simp [hx])
  refine ⟨?_, fun n g hg => ⟨Store.leaveGroup x.uuid g, ?_, rfl, ?_⟩,
    fun uuid _ => by rw [hvolumes]⟩
  · rw [hservers, List.filter_filter]
    refine List.filter_congr fun y hy => ?_
    by_cases howns : i.owns y.tags = true
    · simp [howns]
    · -- Another server has another identifier.
      have hne : y.uuid ≠ x.uuid := by
        intro heq
        obtain rfl : y = x := List.inj_on_of_nodup_map hnodup hy hmem.1 heq
        exact howns ((Identity.owns_eq_carriedBy hcluster _).trans hmem.2)
      simp [hne]
  · rw [hgroups, List.getElem?_map, hg]
    rfl
  · have hgone : ∀ uuid, t.holds i uuid = false := by
      intro uuid
      rw [holds_eq_bearers hcluster, Store.bearers_filter hservers, hx]
      simp
    have hone : ∀ uuid, s.holds i uuid = (x.uuid == uuid) := by
      intro uuid
      rw [holds_eq_bearers hcluster, hx]
      simp
    unfold Store.strangers Store.leaveGroup
    rw [List.filter_filter]
    refine List.filter_congr fun y _ => ?_
    by_cases hy : y.uuid = x.uuid
    · simp [hgone, hone, hy]
    · simp [hgone, hone, hy, Ne.symm hy]

end Parts

theorem Converges.isolated (hcluster : i.clusterId ≠ "") (hs : k.store.Unissued)
    {r : Except Error Action} (h : Converges m i k r l) :
    Isolated i k.store l.store ∧ (k.store.bearers i ≠ [] → k.store.Untouched l.store) := by
  cases h with
  | stopped _ hstore => exact ⟨isolated_of_untouched hstore, fun _ => hstore⟩
  | updated _ _ hstore _ _ => exact ⟨isolated_of_untouched hstore, fun _ => hstore⟩
  | @created r v l hdoc hstore hnone hcreate =>
    refine ⟨?_, fun hne => absurd hnone hne⟩
    cases hcreate with
    | stopped h => exact isolated_of_untouched (hstore.trans h.2)
    | opened hm hdoc hopened =>
      obtain ⟨hservers, hvolumes, -, added, hgroups, -, -⟩ := Grouped.kept (.inr hopened)
      refine isolated_of_kept (hservers.trans hstore.servers) (fun n g hg => ?_)
        (hvolumes.trans hstore.volumeTags)
      rw [hgroups, hstore.groups, List.getElem?_append_left (List.getElem?_eq_some_iff.1 hg).1]
      exact hg
    | @created r l space spec t request hm hgrouped htags hzone hflavor htagged hdoc hok =>
      obtain ⟨hservers, hvolumes, hissued, added, hgroups, -, -⟩ := hgrouped.kept
      refine isolated_of_created hs (hservers.trans hstore.servers)
        (hvolumes.trans hstore.volumeTags)
        (hstore.issued ▸ hissued) (fun n g hg => ?_)
        ((Identity.owns_eq_carriedBy hcluster _).trans htags) htagged
      rw [hgroups, hstore.groups, List.getElem?_append_left (List.getElem?_eq_some_iff.1 hg).1]
      exact hg

theorem Releases.isolated (hcluster : i.clusterId ≠ "")
    (hnodup : (k.store.servers.map (·.uuid)).Nodup) {r : Except Error Action}
    (h : Releases m i k r l) : Isolated i k.store l.store := by
  cases h with
  | ignored _ => exact isolated_of_untouched (.refl _)
  | stopped h => exact isolated_of_untouched h.2
  | absent _ hstore => exact isolated_of_untouched hstore
  | removed hx hservers hgroups hvolumes _ =>
    exact isolated_of_removed hcluster hnodup hx hservers hgroups hvolumes

theorem no_server_of_bearers (hcluster : i.clusterId ≠ "") (h : s.bearers i = []) :
    ∀ x ∈ s.servers, i.owns x.tags = false := by
  have hnone := (Store.filter_owns hcluster s).trans h
  intro x hx
  simpa using List.filter_eq_nil_iff.1 hnone x hx

/-- However a pass ends and whichever calls fail, it leaves alone what is not its server's. With a
server to look after it changes nothing at the provider. For a deleted machine with the finalizer it
succeeds only when no server is left, and any failure but one of the control plane, so one of the
lookup or of the deletion, comes before anything has changed. -/
theorem reconcile_isolated (a : Actuator) (hi : m.identity? = some i) (hcluster : i.clusterId ≠ "")
    (hnodup : (s.servers.map (·.uuid)).Nodup) (hs : s.Unissued) {r : Except Error Action}
    (h : (a.reconcile m).CanEnd Store.Answers s r t) :
    Isolated i s t ∧
      (m.metadata.isDeleting = false → (∃ x ∈ s.servers, i.owns x.tags = true) →
        t.servers = s.servers ∧ t.groups = s.groups ∧ t.volumeTags = s.volumeTags) ∧
      (m.metadata.isDeleting = true → m.hasFinalizer = true → (∃ action, r = .ok action) →
        ∀ x ∈ t.servers, i.owns x.tags = false) ∧
      (m.metadata.isDeleting = true → ∀ e, r = .error e → ¬ e.OfControl → s.Untouched t) := by
  obtain ⟨l, hl, rfl⟩ := h.cluster .null
  cases hdeleting : m.metadata.isDeleting with
  | false =>
    rw [reconcile_living a hdeleting] at hl
    obtain ⟨hisolated, huntouched⟩ := (converge_ends hi hcluster hl).isolated hcluster hs
    refine ⟨hisolated, fun _ ⟨x, hx, howns⟩ => ?_, by rintro ⟨⟩, by rintro ⟨⟩⟩
    have hne : s.bearers i ≠ [] := List.ne_nil_of_mem
      (Store.mem_bearers.2 ⟨hx, (Identity.owns_eq_carriedBy hcluster _).symm.trans howns⟩)
    have hkept := huntouched hne
    exact ⟨hkept.servers, hkept.groups, hkept.volumeTags⟩
  | true =>
    rw [reconcile_deleted a hdeleting] at hl
    have hends := release_ends hi hcluster hl
    refine ⟨hends.isolated hcluster hnodup, by rintro ⟨⟩, fun _ hf hok => ?_,
      fun _ e he hplane => ?_⟩
    · obtain ⟨action, rfl⟩ := hok
      cases hends with
      | ignored hno => rw [hf] at hno; cases hno
      | absent hnone hstore => exact no_server_of_bearers hcluster ((hstore.bearers i).trans hnone)
      | removed hx hservers _ _ _ =>
        refine no_server_of_bearers hcluster ?_
        rw [Store.bearers_filter hservers, hx]
        simp
    · subst he
      cases hends with
      | stopped h => exact h.2
      | absent _ hstore => exact hstore
      | removed _ _ _ _ herror => exact absurd (herror e rfl) hplane

/-- A provider that runs the server of another machine. -/
def neighbour : Store := (Store.empty.newServer "b" "lpg1" (Identity.tags ⟨"b", "c"⟩)).2

theorem neighbour_unissued : neighbour.Unissued where
  servers x hx n hn h := by
    obtain rfl := List.mem_singleton.1 hx
    have hone : 1 = n := Store.identifier_injective h
    have hlt : 1 < n := hn
    omega
  members g hg := by cases hg

/-- A pass creates a server beside that of another machine. -/
theorem reconcile_isolated_neighbour :
    ∃ w : Simulation.World, w.store = neighbour ∧
      (w.run (Actuator.reconcile default (.bare "a" "c"))).2.store.servers.length = 2 ∧
      Isolated ⟨"a", "c"⟩ neighbour
        (w.run (Actuator.reconcile default (.bare "a" "c"))).2.store := by
  let w : Simulation.World := { (default : Simulation.World) with store := neighbour }
  have hnodup : (neighbour.servers.map (·.uuid)).Nodup := List.nodup_singleton _
  have hrun := w.canEnd_store (Actuator.reconcile default (.bare "a" "c"))
  exact ⟨w, rfl, by decide +kernel, (reconcile_isolated default (Machine.identity?_bare "a" "c")
    (by decide) hnodup neighbour_unissued hrun).1⟩

end MachineProvider
