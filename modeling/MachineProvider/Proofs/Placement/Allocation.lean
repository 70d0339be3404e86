import MachineProvider.Proofs.Program.Watched
import MachineProvider.Proofs.Reconcile.Outline

/-! What a create goes by between its look at the groups and its request for a server. Nothing at
the provider is reserved meanwhile. -/
namespace MachineProvider

open Cloud (Server ServerGroup)
open Attempt (Ends)

variable {m : Machine} {ν : Option Allocation}

/-- The groups seen by a create that has not asked for its server yet, and the one it made since, if
none of them had room. -/
structure Allocation where
  seen : List ServerGroup
  opened : Option ServerGroup

/-- The groups it may still pick. -/
def Allocation.choices (alloc : Allocation) : List String :=
  match alloc.opened with
  | some g => [g.uuid]
  | none => (alloc.seen.filter (·.servers.length < maxGroupMembers)).map (·.uuid)

theorem Allocation.mem_choices_of_find {zone : String} {gs : List ServerGroup} {g : ServerGroup}
    (h : gs.find? (hasRoom zone) = some g) : g.uuid ∈ (Allocation.mk gs none).choices := by
  have hroom : g.servers.length < maxGroupMembers := by
    have hg := List.find?_some h
    simp only [hasRoom, Bool.and_eq_true, decide_eq_true_eq] at hg
    exact hg.2
  exact List.mem_map.2 ⟨g, List.mem_filter.2 ⟨List.mem_of_find?_eq_some h, by simpa using hroom⟩,
    rfl⟩

namespace Placement

/-- An allocation begins with a successful look at the groups. It ends when a group cannot be made
and when a server was asked for, whatever the answer. -/
def note (ν : Option Allocation) : (c : Call) → c.Answer → Option Allocation
  | .cloud (.listGroups _), r =>
    match (r : Except Cloud.Error (List ServerGroup)) with
    | .ok gs => some ⟨gs, none⟩
    | .error _ => none
  | .cloud (.createGroup _), r =>
    match (r : Except Cloud.Error ServerGroup) with
    | .ok g => ν.map fun alloc => { alloc with opened := some g }
    | .error _ => none
  | .cloud (.createServer _), _ => none
  | _, _ => ν

/-- The allocation of each operation, while it has one. -/
def notebook : Notebook (Option Allocation) where
  blank := none
  note := note

/-- One group at most, which the allocation may pick. -/
def Picks (ν : Option Allocation) (picked : List String) : Prop :=
  picked.length ≤ 1 ∧ ∀ uuid ∈ picked, ∃ alloc, ν = some alloc ∧ uuid ∈ alloc.choices

/-- The groups of one key are looked at, and a server is only asked for in the groups of the payload
and in one that was picked. -/
def Allowed (m : Machine) (ν : Option Allocation) : Call → Prop
  | .cloud (.listGroups filter) => ∃ key, filter = some ⟨antiAffinityTag, key⟩
  | .cloud (.createServer request) => ∃ space i spec picked, m.essentials = .ok (space, i, spec) ∧
      request.groups = spec.serverGroups ++ picked ∧ Picks ν picked
  | _ => True

/-- The notes on an operation are changed by its own calls only. -/
def protocol (m : Machine) : Protocol (Option Allocation) where
  rely := Eq
  step ν c _ := Allowed m ν c
  rely_refl _ := rfl
  rely_trans h h' := h.trans h'

end Placement

open Placement (notebook protocol Picks)

/-- Calls that have nothing to do with groups, but for the deletion of a server. -/
def Call.Ungrouped : Call → Prop
  | .cloud (.listGroups _) | .cloud (.createGroup _) | .cloud (.createServer _) => False
  | _ => True

namespace Call

variable {c : Call}

theorem ungrouped_or (c : Call) : c.Ungrouped ∨ (∃ filter, c = .cloud (.listGroups filter)) ∨
    (∃ request, c = .cloud (.createGroup request)) ∨
    ∃ request, c = .cloud (.createServer request) := by
  cases c with
  | cloud c =>
    cases c with
    | listGroups filter => exact .inr (.inl ⟨filter, rfl⟩)
    | createGroup request => exact .inr (.inr (.inl ⟨request, rfl⟩))
    | createServer request => exact .inr (.inr (.inr ⟨request, rfl⟩))
    | _ => exact .inl trivial
  | _ => exact .inl trivial

theorem Reads.ungrouped (h : c.Reads) : c.Ungrouped := by
  unfold Reads at h
  split at h <;> trivial

theorem Tags.ungrouped (h : c.Tags) : c.Ungrouped := by
  unfold Tags at h
  split at h <;> trivial

theorem Ungrouped.note (h : c.Ungrouped) (r : c.Answer) : notebook.note ν c r = ν := by
  change Placement.note ν c r = ν
  unfold Placement.note
  split <;> trivial

theorem Ungrouped.allowed (h : c.Ungrouped) : Placement.Allowed m ν c := by
  unfold Placement.Allowed
  split <;> trivial

end Call

section Parts

variable {α : Type}

theorem Program.Only.keeps_placement {p : Program α} {ends : α → Prop}
    (h : p.Only Call.Ungrouped ends) (ν : Option Allocation) :
    p.Keeps notebook.answers (protocol m) (fun a u => ends a ∧ u = ν) ν := by
  have hrely : ∀ u v, (protocol m).rely u v → u = ν → v = ν := fun _ _ huv hu => huv.symm.trans hu
  refine h.keeps hrely (fun u c r v hu hc hr => ?_) rfl
  exact ⟨hr.1, hc.allowed, hr.2.trans ((hc.note r).trans hu)⟩

theorem Attempt.keeps_placement {x : Attempt α} {good : α → Prop} {bad : Error → Prop}
    (h : (ExceptT.run x).Only Call.Ungrouped (Ends good bad)) (ν : Option Allocation) :
    (ExceptT.run x).Keeps notebook.answers (protocol m)
      (Leaves (fun a u => good a ∧ u = ν) fun _ => True) ν := by
  refine (h.keeps_placement ν).mono fun r u ⟨hr, hu⟩ => ?_
  cases r with
  | ok a => exact ⟨hr, hu⟩
  | error e => trivial

/-- The group that was found, or else a new one. -/
def foundOrNew (zone key : String) : Option ServerGroup → Attempt String
  | some g => pure g.uuid
  | none => do
    let g : ServerGroup ← Attempt.cloud (.createGroup (groupRequest zone key))
    return g.uuid

theorem allocateGroup_eq (zone key : String) :
    allocateGroup zone key = (do
      let groups : List ServerGroup ← Attempt.cloud (.listGroups (some ⟨antiAffinityTag, key⟩))
      foundOrNew zone key (groups.find? (hasRoom zone))) := by
  unfold allocateGroup foundOrNew
  rfl

/-- The group that is handed out is one that the notes leave to choose. -/
theorem allocateGroup_keeps (zone key : String) :
    (ExceptT.run (allocateGroup zone key)).Keeps notebook.answers (protocol m)
      (Leaves (fun uuid u => Picks u [uuid]) fun _ => True) none := by
  rw [allocateGroup_eq]
  rintro _ rfl r _ ⟨-, rfl⟩
  refine ⟨⟨key, rfl⟩, ?_⟩
  cases (r : Except Cloud.Error (List ServerGroup)) with
  | error e => exact fun _ _ => trivial
  | ok gs =>
    change (ExceptT.run (foundOrNew zone key (gs.find? (hasRoom zone)))).Keeps notebook.answers
      (protocol m) _ (some ⟨gs, none⟩)
    cases hfind : gs.find? (hasRoom zone) with
    | some g =>
      rintro _ rfl
      refine ⟨Nat.le_refl 1, fun uuid huuid => ⟨_, rfl, ?_⟩⟩
      obtain rfl := List.mem_singleton.1 huuid
      exact Allocation.mem_choices_of_find hfind
    | none =>
      rintro _ rfl r _ ⟨-, rfl⟩
      refine ⟨trivial, ?_⟩
      cases (r : Except Cloud.Error ServerGroup) with
      | error e => exact fun _ _ => trivial
      | ok g =>
        rintro _ rfl
        exact ⟨Nat.le_refl 1, fun uuid huuid => ⟨_, rfl, huuid⟩⟩

theorem groups_keeps (ctx : MachineContext) :
    (ExceptT.run ctx.groups).Keeps notebook.answers (protocol m)
      (Leaves (fun groups u => ∃ picked, groups = ctx.spec.serverGroups ++ picked ∧ Picks u picked)
        fun _ => True) none := by
  unfold MachineContext.groups
  split
  · rintro _ rfl
    exact ⟨[], by simp, Nat.zero_le 1, by simp⟩
  · refine keeps_bind (allocateGroup_keeps ctx.spec.zone ctx.spec.antiAffinityKey)
      fun uuid u hu => ?_
    rintro _ rfl
    exact ⟨[uuid], rfl, hu⟩

theorem recordServer_ungrouped (ctx : MachineContext) (server : Server) :
    (ExceptT.run (ctx.recordServer server)).Only Call.Ungrouped
      (Ends (fun _ => True) Error.Plain) :=
  recordServer_only (fun _ _ => trivial) fun _ _ => trivial

theorem delete_only (a : Actuator) (m : Machine) :
    (ExceptT.run (a.delete m)).Only Call.Ungrouped fun _ => True := by
  refine Attempt.only_then ((begin_only a m).mono (fun _ => Call.Reads.ungrouped) fun _ => id)
    fun ctx _ => ?_
  refine Attempt.only_then (Attempt.only_any (locate_only ctx.identity trivial)) fun found _ => ?_
  cases found with
  | none => trivial
  | some server =>
    exact (Attempt.cloud_only (c := .deleteServer server.uuid) trivial).mono (fun _ => id)
      fun _ _ => trivial

end Parts

/-- Every create keeps to what is noted of it, from its look at the groups to its request. -/
theorem create_keeps_placement (a : Actuator) (m : Machine) :
    (ExceptT.run (a.create m)).Keeps notebook.answers (protocol m) (fun _ _ => True) none := by
  have hkeeps : (ExceptT.run (a.create m)).Keeps notebook.answers (protocol m)
      (Leaves (fun _ _ => True) fun _ => True) none := by
    have hbegin := (begin_essentials a m).mono (fun _ => Call.Reads.ungrouped) fun _ => id
    refine keeps_bind (Attempt.keeps_placement hbegin none) fun ctx u hu => ?_
    obtain ⟨⟨-, hessentials⟩, rfl⟩ := hu
    have hload := (loadUserData_only m ctx.space ctx.spec).mono
      (fun _ => Call.Reads.ungrouped) fun _ => id
    refine keeps_bind (Attempt.keeps_placement hload none) fun userData u hu => ?_
    obtain ⟨-, rfl⟩ := hu
    refine keeps_bind (groups_keeps ctx) fun groups u hu => ?_
    obtain ⟨picked, hgroups, hpicked⟩ := hu
    -- Whatever the provider says to the request, nothing is noted any more.
    have hcreate : (ExceptT.run (ctx.createServer (ctx.serverRequest groups userData))).Keeps
        notebook.answers (protocol m) (Leaves (fun _ u => u = none) fun _ => True) u := by
      rintro _ rfl r _ ⟨-, rfl⟩
      refine ⟨⟨_, _, _, picked, hessentials, hgroups, hpicked⟩, ?_⟩
      cases (r : Except Cloud.Error Server) with
      | error e => exact fun _ _ => trivial
      | ok server => exact fun _ hu => hu.symm
    refine keeps_bind hcreate fun server u hu => ?_
    subst hu
    refine keeps_bind (Attempt.keeps_placement (recordServer_ungrouped ctx server) none)
      fun _ u hu => ?_
    obtain ⟨-, rfl⟩ := hu
    have htag := (tagVolume_only ctx server a.taggingBackoff).mono
      (fun _ => Call.Tags.ungrouped) fun _ => id
    refine (Attempt.keeps_placement htag none).mono fun r u _ => ?_
    cases r <;> trivial
  exact hkeeps.mono fun _ _ _ => trivial

theorem delete_keeps_placement (a : Actuator) (m : Machine) :
    (ExceptT.run (a.delete m)).Keeps notebook.answers (protocol m) (fun _ _ => True) none :=
  ((delete_only a m).keeps_placement none).mono fun _ _ _ => trivial

end MachineProvider
