import MachineProvider.Actuator.Identity
import MachineProvider.Cloud.Store
import MachineProvider.Proofs.Entries
import MachineProvider.Proofs.Program.Protocol

/-! The servers that carry an identity, how a lookup answers for them and what calls do to them. -/
namespace MachineProvider

open Cloud (Call Server ServerRequest Store Tags)

namespace Identity

variable {i j : Identity} {tags : Tags}

/-- Whether tags name this identity, be its cluster empty or not. -/
def carriedBy (i : Identity) (tags : Tags) : Bool :=
  tags.get? machineNameTag == some i.name && tags.get? clusterIdTag == some i.clusterId

theorem owns_eq : i.owns tags = (!i.clusterId.isEmpty && i.carriedBy tags) := by
  unfold owns carriedBy
  cases hc : tags.get? clusterIdTag with
  | none => simp
  | some clusterId =>
    by_cases h : clusterId = i.clusterId
    · simp [h]
    · have hb : (clusterId == i.clusterId) = false := beq_eq_false_iff_ne.2 h
      simp [hb]

theorem owns_eq_carriedBy (hcluster : i.clusterId ≠ "") (tags : Tags) :
    i.owns tags = i.carriedBy tags := by
  rw [owns_eq, String.isEmpty_eq_false_iff.2 hcluster]
  rfl

theorem carriedBy_iff : i.carriedBy tags = true ↔
    tags.get? machineNameTag = some i.name ∧ tags.get? clusterIdTag = some i.clusterId := by
  simp [carriedBy]

theorem eq_of_carriedBy (hi : i.carriedBy tags = true) (hj : j.carriedBy tags = true) : i = j := by
  obtain ⟨hin, hic⟩ := carriedBy_iff.1 hi
  obtain ⟨hjn, hjc⟩ := carriedBy_iff.1 hj
  obtain ⟨_, _⟩ := i
  obtain ⟨_, _⟩ := j
  simp_all

/-- Tags of a payload never hide or replace those of the identity. -/
theorem carriedBy_union (i : Identity) (tags : Tags) : i.carriedBy (tags.union i.tags) = true := by
  have hname : i.tags.get? machineNameTag = some i.name := by
    unfold Identity.tags
    rw [StringMap.get?_ofList_of_nodup (by simp [machineNameTag, clusterIdTag])]
    simp
  have hcluster : i.tags.get? clusterIdTag = some i.clusterId := by
    unfold Identity.tags
    rw [StringMap.get?_ofList_of_nodup (by simp [machineNameTag, clusterIdTag])]
    simp [machineNameTag, clusterIdTag]
  simp [carriedBy_iff, StringMap.get?_union, hname, hcluster]

end Identity

namespace Cloud.Store

variable {s t : Store} {i j : Identity}

/-- The servers whose tags name an identity. -/
def bearers (s : Store) (i : Identity) : List Server := s.servers.filter fun x => i.carriedBy x.tags

theorem mem_bearers {x : Server} :
    x ∈ s.bearers i ↔ x ∈ s.servers ∧ i.carriedBy x.tags = true := List.mem_filter

/-- The servers that an identity with a cluster owns. -/
theorem filter_owns {i : Identity} (hcluster : i.clusterId ≠ "") (s : Store) :
    s.servers.filter (fun x => i.owns x.tags) = s.bearers i :=
  List.filter_congr fun x _ => Identity.owns_eq_carriedBy hcluster x.tags

theorem filter_listServers (s : Store) (i : Identity) :
    (s.listServers (some i.lookupFilter)).filter (fun x => i.owns x.tags) =
      if i.clusterId.isEmpty then [] else s.bearers i := by
  unfold listServers bearers
  rw [List.filter_filter]
  by_cases hempty : i.clusterId.isEmpty
  · simp [Identity.owns_eq, hempty]
  · rw [if_neg hempty]
    refine List.filter_congr fun x _ => ?_
    have hfilter : i.carriedBy x.tags = true → admits (some i.lookupFilter) x.tags = true := by
      intro h
      simp [admits, TagFilter.holds, Identity.lookupFilter, (Identity.carriedBy_iff.1 h).1]
    rw [Identity.owns_eq]
    cases h : i.carriedBy x.tags <;> simp_all

/-- A lookup finds the only bearer, and none for an empty cluster. -/
theorem resolve_listServers (s : Store) (i : Identity) :
    i.resolve (s.listServers (some i.lookupFilter)) =
      match if i.clusterId.isEmpty then [] else s.bearers i with
      | [] => .ok none
      | [x] => .ok (some x)
      | xs => .error (.ambiguousIdentity i.name i.clusterId (xs.map (·.uuid))) := by
  rw [← filter_listServers]
  rfl

/-- How a provider may answer a call: as it does in memory, or with a failure that
changes nothing. -/
inductive Serves (s : Store) (c : Call) : Except Error c.Result → Store → Prop
  | answered : Serves s c (s.answer c).1 (s.answer c).2
  | failed (e : Error) : Serves s c (.error e) s

variable {c : Call} {r : Except Error c.Result}

theorem answer_failing {text : String} (h : s.failure? c.operation = some text) :
    s.answer c = (.error (.api text), { s with calls := s.calls ++ [c] }) := by
  unfold answer
  have h' : failure? { s with calls := s.calls ++ [c] } c.operation = some text := h
  simp only [h']

theorem answer_working (h : s.failure? c.operation = none) :
    s.answer c = perform { s with calls := s.calls ++ [c] } c := by
  unfold answer
  have h' : failure? { s with calls := s.calls ++ [c] } c.operation = none := h
  simp only [h']

/-- What a call can do, and when: a call that fails changes nothing. -/
inductive Performs (s : Store) : (c : Call) → Except Error c.Result → Store → Prop
  | failed {c : Call} (e : Error) : Performs s c (.error e) s
  | created (request : ServerRequest) :
    Performs s (.createServer request) (.ok (s.createServer request).1) (s.createServer request).2
  | shown {uuid : String} {x : Server} (hx : s.servers.find? (·.uuid = uuid) = some x)
    (hreads : ∀ n, s.hiddenReads.get? uuid ≠ some (n + 1)) : Performs s (.getServer uuid) (.ok x) s
  | hidden {uuid : String} {x : Server} {n : Nat} (hx : s.servers.find? (·.uuid = uuid) = some x)
    (hreads : s.hiddenReads.get? uuid = some (n + 1)) :
    Performs s (.getServer uuid) (.ok { x with volumes := [] })
      { s with hiddenReads := s.hiddenReads.insert uuid n }
  | listed (filter : Option TagFilter) :
    Performs s (.listServers filter) (.ok (s.listServers filter)) s
  | removed {uuid : String} (h : s.servers.any (·.uuid = uuid) = true) :
    Performs s (.deleteServer uuid) (.ok ()) { s with
      servers := s.servers.filter (·.uuid ≠ uuid)
      groups := s.groups.map (leaveGroup uuid) }
  | opened (request : GroupRequest) :
    Performs s (.createGroup request) (.ok (s.createGroup request).1) (s.createGroup request).2
  | grouped (filter : Option TagFilter) :
    Performs s (.listGroups filter) (.ok (s.listGroups filter)) s
  | tagged {uuid : String} (request : VolumeRequest) (h : s.hasVolume uuid = true) :
    Performs s (.updateVolume uuid request) (.ok ())
      { s with volumeTags := s.volumeTags.insert uuid request.tags }

theorem performs (s : Store) (c : Call) : s.Performs c (s.perform c).1 (s.perform c).2 := by
  cases c with
  | createServer request => exact .created request
  | getServer uuid =>
    simp only [perform, getServer]
    split
    · exact .failed _
    · next hx =>
      split
      · next hreads => exact .hidden hx hreads
      · next hreads => exact .shown hx hreads
  | listServers filter => exact .listed filter
  | deleteServer uuid =>
    simp only [perform, deleteServer]
    split
    · next h => exact .removed h
    · exact .failed _
  | createGroup request => exact .opened request
  | listGroups filter => exact .grouped filter
  | updateVolume uuid request =>
    simp only [perform, updateVolume]
    split
    · next h => exact .tagged request h
    · exact .failed _

/-- However a call is answered, it has done what it can do, the record of calls aside. -/
theorem Serves.performs (h : s.Serves c r t) : ∃ calls, Performs { s with calls } c r t := by
  cases h with
  | failed e => exact ⟨s.calls, .failed e⟩
  | answered =>
    refine ⟨s.calls ++ [c], ?_⟩
    cases hf : s.failure? c.operation with
    | some text => rw [answer_failing hf]; exact .failed _
    | none => rw [answer_working hf]; exact Store.performs _ c

/-- Only creating and deleting servers changes the servers. -/
theorem Serves.servers_eq (h : s.Serves c r t) (hcreate : ∀ request, c ≠ .createServer request)
    (hdelete : ∀ uuid, c ≠ .deleteServer uuid) : t.servers = s.servers := by
  obtain ⟨calls, h⟩ := h.performs
  cases h with
  | created request => exact absurd rfl (hcreate request)
  | removed => exact absurd rfl (hdelete _)
  | _ => rfl

theorem Serves.list {filter : Option TagFilter} {r : Except Error (Call.listServers filter).Result}
    (h : s.Serves (.listServers filter) r t) :
    t.servers = s.servers ∧ ((∃ e, r = .error e) ∨ r = .ok (s.listServers filter)) := by
  obtain ⟨calls, h⟩ := h.performs
  cases h with
  | failed e => exact ⟨rfl, .inl ⟨e, rfl⟩⟩
  | listed => exact ⟨rfl, .inr rfl⟩

theorem Serves.listed {filter : Option TagFilter} {candidates : List Server}
    {r : Except Error (Call.listServers filter).Result} (h : s.Serves (.listServers filter) r t)
    (hok : r = .ok candidates) : s.listServers filter = candidates := by
  rcases h.list.2 with ⟨e, he⟩ | hlist
  · exact absurd (he.symm.trans hok) (by rintro ⟨⟩)
  · exact Except.ok.inj (hlist.symm.trans hok)

/-- What a lookup makes of a list, for an identity with a cluster. -/
theorem Serves.resolve {candidates : List Server} (hi : i.clusterId ≠ "")
    {r : Except Error (Call.listServers (some i.lookupFilter)).Result}
    (h : s.Serves (.listServers (some i.lookupFilter)) r t) (hok : r = .ok candidates) :
    i.resolve candidates =
      match s.bearers i with
      | [] => .ok none
      | [x] => .ok (some x)
      | xs => .error (.ambiguousIdentity i.name i.clusterId (xs.map (·.uuid))) := by
  have hcluster : i.clusterId.isEmpty = false := by simpa using hi
  rw [← h.listed hok, resolve_listServers, hcluster]
  rfl

/-- A lookup goes by how many servers carry the identity: none, one or more. -/
theorem Serves.finds {candidates : List Server} (hi : i.clusterId ≠ "")
    {r : Except Error (Call.listServers (some i.lookupFilter)).Result}
    (h : s.Serves (.listServers (some i.lookupFilter)) r t) (hok : r = .ok candidates)
    {absent : Prop} {present : Server → Prop} {bad : MachineProvider.Error → Prop}
    (hnone : s.bearers i = [] → absent) (hone : ∀ x, s.bearers i = [x] → present x)
    (hmany : ∀ uuids, 2 ≤ (s.bearers i).length →
      bad (.ambiguousIdentity i.name i.clusterId uuids)) :
    match i.resolve candidates with
    | .ok none => absent
    | .ok (some x) => present x
    | .error e => bad e := by
  rw [h.resolve hi hok]
  cases hb : s.bearers i with
  | nil => exact hnone hb
  | cons x rest =>
    cases rest with
    | nil => exact hone x hb
    | cons y rest => exact hmany _ (by simp [hb])

/-- Nobody finds the servers of an empty cluster. -/
theorem Serves.resolve_empty {candidates : List Server} (hi : i.clusterId = "")
    {r : Except Error (Call.listServers (some i.lookupFilter)).Result}
    (h : s.Serves (.listServers (some i.lookupFilter)) r t) (hok : r = .ok candidates) :
    i.resolve candidates = .ok none := by
  rw [← h.listed hok, resolve_listServers, hi]
  rfl

theorem Serves.create {request : ServerRequest}
    {r : Except Error (Call.createServer request).Result}
    (h : s.Serves (.createServer request) r t) :
    (∃ e, r = .error e) ∧ t.servers = s.servers ∨
      ∃ shown server, r = .ok shown ∧ server.tags = request.tags ∧
        t.servers = s.servers ++ [server] := by
  obtain ⟨calls, h⟩ := h.performs
  cases h with
  | failed e => exact .inl ⟨⟨e, rfl⟩, rfl⟩
  | created => exact .inr ⟨_, _, rfl, rfl, rfl⟩

theorem Serves.delete {uuid : String} {r : Except Error (Call.deleteServer uuid).Result}
    (h : s.Serves (.deleteServer uuid) r t) :
    (∃ e, r = .error e) ∧ t.servers = s.servers ∨
      r = .ok () ∧ t.servers = s.servers.filter (·.uuid ≠ uuid) := by
  obtain ⟨calls, h⟩ := h.performs
  cases h with
  | failed e => exact .inl ⟨⟨e, rfl⟩, rfl⟩
  | removed => exact .inr ⟨rfl, rfl⟩

/-- The answers of a world that has a provider and nothing else that changes. -/
def Answers (s : Store) : (c : MachineProvider.Call) → c.Answer → Store → Prop
  | .cloud c, r, t => s.Serves c r t
  | .control c, r, t => (MachineProvider.Call.control c).Honest r ∧ t = s
  | _, _, t => t = s

theorem Answers.honest {c : MachineProvider.Call} {r : c.Answer} (h : s.Answers c r t) :
    c.Honest r := by
  cases c with
  | control c => exact h.1
  | _ => trivial

theorem Answers.servers_eq {c : MachineProvider.Call} {r : c.Answer} (h : s.Answers c r t)
    (hcreate : ∀ request, c ≠ .cloud (.createServer request))
    (hdelete : ∀ uuid, c ≠ .cloud (.deleteServer uuid)) : t.servers = s.servers := by
  cases c with
  | cloud c =>
    exact Serves.servers_eq h (fun _ hc => hcreate _ (congrArg _ hc))
      fun _ hc => hdelete _ (congrArg _ hc)
  | control c => exact congrArg servers h.2
  | client token => exact congrArg servers h
  | sleep d => exact congrArg servers h
  | draw width => exact congrArg servers h

theorem Answers.servers_eq_of_aside {c : MachineProvider.Call} {r : c.Answer} (h : s.Answers c r t)
    (hc : c.Aside) : t.servers = s.servers :=
  h.servers_eq (by rintro _ rfl; exact hc) (by rintro _ rfl; exact hc)

theorem bearers_congr (h : t.servers = s.servers) (i : Identity) : t.bearers i = s.bearers i := by
  simp [bearers, h]

/-- A new server is one more for the identity it carries, and for no other. -/
theorem bearers_append {server : Server} (h : t.servers = s.servers ++ [server])
    (hi : i.carriedBy server.tags = true) (j : Identity) :
    t.bearers j = s.bearers j ++ if j = i then [server] else [] := by
  unfold bearers
  rw [h, List.filter_append]
  by_cases hj : j = i
  · simp [hj, hi]
  · have hno : j.carriedBy server.tags = false := by
      cases hb : j.carriedBy server.tags with
      | false => rfl
      | true => exact absurd (Identity.eq_of_carriedBy hb hi) hj
    simp [hj, hno]

theorem bearers_filter {uuid : String} (h : t.servers = s.servers.filter (·.uuid ≠ uuid))
    (i : Identity) : t.bearers i = (s.bearers i).filter (·.uuid ≠ uuid) := by
  unfold bearers
  rw [h, List.filter_filter, List.filter_filter]
  exact List.filter_congr fun x _ => Bool.and_comm ..

end Cloud.Store

end MachineProvider
