import Mathlib.Data.Fintype.Card
import Mathlib.Data.List.FinRange
import MachineProvider.Proofs.Cloud.Groups
import MachineProvider.Proofs.Placement.Allocation

/-! Creates and deletes that are interleaved call by call. Creates that look at the groups before
any of them has placed its server all pick the same one. -/
namespace MachineProvider

open Cloud (ServerGroup Store)
open Placement (notebook)

/-- Whether a group carries the tag of a key. -/
def Cloud.ServerGroup.keyed (g : ServerGroup) : Bool := g.tags.contains antiAffinityTag

theorem Cloud.ServerGroup.keyed_congr {g h : ServerGroup} (hlabel : h.label = g.label) :
    h.keyed = g.keyed := congrArg (fun label => label.2.contains antiAffinityTag) hlabel

theorem Cloud.Store.keyed_of_mem_listGroups {s : Store} {key : String} {g : ServerGroup}
    (hg : g ∈ s.listGroups (some ⟨antiAffinityTag, key⟩)) : g.keyed = true := by
  obtain ⟨-, hholds⟩ := List.mem_filter.1 hg
  have hkey : g.tags.get? antiAffinityTag = some key := by
    simpa [Store.admits, Cloud.TagFilter.holds] using hholds
  simp [ServerGroup.keyed, StringMap.contains, hkey]

/-- No payload names a group of a key. -/
def Unnamed (admits : Machine → Prop) (s : Store) : Prop :=
  ∀ m space i spec, admits m → m.essentials = .ok (space, i, spec) →
    ∀ g ∈ s.groups, g.keyed = true → g.uuid ∉ spec.serverGroups

/-- Creates and deletes of the machines that are admitted, at a provider. -/
def operations {ι : Type} (admits : Machine → Prop) : System ι Store (Except Error Unit) where
  answers := Store.Answers
  starts _ _ p := ∃ (a : Actuator) (m : Machine), admits m ∧
    (p = ExceptT.run (a.create m) ∨ p = ExceptT.run (a.delete m))
  moves _ _ := False

/-- Operations at a provider, and the allocation of each. -/
abbrev Placements (ι : Type) := Watched ι Store (Except Error Unit) (Option Allocation)

namespace Placements

section

variable {ι : Type} [DecidableEq ι]

/-- One operation has gone on, and maybe the provider and the notes have. -/
def after (w : Placements ι) (i : ι) (p : Option (Program (Except Error Unit))) (t : Store)
    (ν : Option Allocation) : Placements ι :=
  ⟨{ w.fleet with world := t }.set i p, Function.update w.notes i ν⟩

omit [DecidableEq ι] in
/-- So many operations allocate at once, or fewer. -/
def Allocating (K : Nat) (w : Placements ι) : Prop :=
  ∀ I : Finset ι, (∀ i ∈ I, (w.notes i).isSome) → I.card ≤ K

/-- A step after which so many operations allocate at once, or fewer, and no payload names a
group of a key. -/
def Step (admits : Machine → Prop) (K : Nat) (w w' : Placements ι) : Prop :=
  Watched.Step (operations admits) notebook w w' ∧ w'.Allocating K ∧ Unnamed admits w'.fleet.world

/-- What a run of such steps leads to from a store. -/
def Reachable (admits : Machine → Prop) (K : Nat) (s : Store) : Placements ι → Prop :=
  Relation.ReflTransGen (Step admits K) (Watched.idle notebook s)

end

section Race

/-- A payload with a key and nothing else. -/
def keyedSpec : ProviderSpec := { (default : ProviderSpec) with antiAffinityKey := "k" }

def keyedMachine (name : String) : Machine :=
  { Machine.bare name "c" with spec := ⟨none, some (.object [("antiAffinityKey", .string "k")])⟩ }

/-- The machines with that payload. -/
def Keyed (m : Machine) : Prop := ∃ name, m = keyedMachine name

theorem keyedMachine_essentials (name : String) :
    (keyedMachine name).essentials = .ok ("ns", ⟨name, "c"⟩, keyedSpec) := by rfl

theorem keyed_unnamed (s : Store) : Unnamed Keyed s := by
  rintro m space i spec ⟨name, rfl⟩ hspec g _ _ hmem
  obtain rfl : keyedSpec = spec := by
    rw [keyedMachine_essentials] at hspec
    exact (Prod.mk.inj (Prod.mk.inj (Except.ok.inj hspec)).2).2
  cases hmem

/-- A create looks at the groups of the key and asks for its server in the first that has room. -/
theorem create_picks (a : Actuator) (name : String) :
    ∃ look begin, ExceptT.run (a.create (keyedMachine name)) =
      .call (.client a.defaultToken) begin ∧
      begin (.ok ()) = .call (.cloud (.listGroups (some ⟨antiAffinityTag, "k"⟩))) look ∧
      ∀ gs g, gs.find? (hasRoom "") = some g → ∃ request place,
        look (.ok gs) = .call (.cloud (.createServer request)) place ∧
          request.groups = [g.uuid] := by
  have hcontext : (keyedMachine name).context a.defaultToken =
      pure ⟨keyedMachine name, "ns", ⟨name, "c"⟩, keyedSpec, a.defaultToken⟩ := by
    unfold Machine.context
    rw [keyedMachine_essentials]
    rfl
  unfold Actuator.create Actuator.begin
  rw [hcontext]
  refine ⟨_, _, rfl, rfl, fun gs g hfind => ?_⟩
  let ctx : MachineContext := ⟨keyedMachine name, "ns", ⟨name, "c"⟩, keyedSpec, a.defaultToken⟩
  change ∃ request place, ExceptT.run (foundOrNew "" "k" (gs.find? (hasRoom "")) >>=
      (fun group => pure (ctx.spec.serverGroups ++ [group])) >>= fun groups =>
      ctx.createServer (ctx.serverRequest groups "") >>= fun server =>
      ctx.recordServer server >>= fun _ => ctx.tagVolume server a.taggingBackoff) =
    .call (.cloud (.createServer request)) place ∧ request.groups = [g.uuid]
  rw [hfind]
  exact ⟨_, _, rfl, rfl⟩

variable {K : Nat} {u v w : Placements (Fin K)} {i j : Fin K} {g : ServerGroup}

/-- One operation goes on, and the others wait. -/
def Goes (i : Fin K) (w w' : Placements (Fin K)) : Prop :=
  Relation.ReflTransGen (Step Keyed K) w w' ∧ ∀ j, j ≠ i → w'.fleet.running j = w.fleet.running j

theorem Goes.trans (h : Goes i u v) (h' : Goes i v w) : Goes i u w :=
  ⟨h.1.trans h'.1, fun j hj => (h'.2 j hj).trans (h.2 j hj)⟩

theorem Goes.aboutTo {c : Call} (h : Goes i u v) (hj : j ≠ i) (hc : u.fleet.AboutTo j c) :
    v.fleet.AboutTo j c := by
  obtain ⟨next, hc⟩ := hc
  exact ⟨next, (h.2 j hj).trans hc⟩

theorem goes_after {p : Option (Program (Except Error Unit))} {t : Store} {ν : Option Allocation}
    (h : Watched.Step (operations Keyed) notebook w (w.after i p t ν)) :
    Goes i w (w.after i p t ν) := by
  have hcrowd : (w.after i p t ν).Allocating K := fun I _ => by
    simpa using Finset.card_le_univ I
  exact ⟨.single ⟨h, hcrowd, keyed_unnamed _⟩, fun j hj => by simp [after, Fleet.set, hj]⟩

theorem goes_start (hi : w.fleet.running i = none) (a : Actuator) (name : String) :
    ∃ w', Goes i w w' ∧ w'.fleet.world = w.fleet.world ∧
      w'.fleet.running i = some (ExceptT.run (a.create (keyedMachine name))) :=
  ⟨_, goes_after (.start hi ⟨a, _, ⟨name, rfl⟩, .inl rfl⟩), rfl, by simp [after, Fleet.set]⟩

theorem goes_call {c : Call} {next : c.Answer → Program (Except Error Unit)}
    (hi : w.fleet.running i = some (.call c next)) (r : c.Answer) {t : Store}
    (hr : w.fleet.world.Answers c r t) :
    ∃ w', Goes i w w' ∧ w'.fleet.world = t ∧ w'.fleet.running i = some (next r) :=
  ⟨_, goes_after (.call hi hr), rfl, by simp [after, Fleet.set]⟩

/-- Nothing fails, and there is one group, of the key and with room. -/
structure OneGroup (g : ServerGroup) (s : Store) : Prop where
  failures : s.failures = []
  groups : s.groups = [g]
  key : g.tags.get? antiAffinityTag = some "k"
  zone : g.zone.slug = ""

/-- The next thing that the operation does is to ask for a server in the group. -/
def Asks (w : Placements (Fin K)) (uuid : String) (i : Fin K) : Prop :=
  ∃ request, w.fleet.AboutTo i (.cloud (.createServer request)) ∧ request.groups = [uuid]

theorem goes_request (hi : w.fleet.running i = none) (hw : OneGroup g w.fleet.world)
    (hmembers : g.servers.length < maxGroupMembers) :
    ∃ w', Goes i w w' ∧ OneGroup g w'.fleet.world ∧ w'.Asks g.uuid i := by
  obtain ⟨look, begin, hbegin, hlook, hpick⟩ := create_picks default (toString i.val)
  obtain ⟨request, place, hplace, hgroups⟩ := hpick [g] g (by simp [hasRoom, hw.zone, hmembers])
  obtain ⟨u, hu, hworld, hi⟩ := goes_start hi default (toString i.val)
  rw [hbegin] at hi
  obtain ⟨v, hv, hworld', hi⟩ := goes_call hi (Except.ok ()) rfl
  rw [hlook] at hi
  have hsame : v.fleet.world = w.fleet.world := hworld'.trans hworld
  have hlisted : w.fleet.world.listGroups (some ⟨antiAffinityTag, "k"⟩) = [g] := by
    simp [Store.listGroups, Store.admits, Cloud.TagFilter.holds, hw.groups, hw.key]
  obtain ⟨t, ht, hstore⟩ :=
    Store.exists_serves hw.failures (.listGroups (some ⟨antiAffinityTag, "k"⟩))
  obtain ⟨x, hx, rfl, hi⟩ := goes_call hi _ (hsame ▸ ht)
  refine ⟨x, (hu.trans hv).trans hx, { hw with
    failures := ht.failures_eq.trans hw.failures
    groups := hstore.groups.trans hw.groups }, request, ⟨place, ?_⟩, hgroups⟩
  rw [hi, hsame, ← hplace, ← hlisted]
  rfl

theorem goes_place (hw : OneGroup g w.fleet.world) (hi : w.Asks g.uuid i) :
    ∃ w' stub, Goes i w w' ∧ OneGroup { g with servers := g.servers ++ [stub] } w'.fleet.world := by
  obtain ⟨request, ⟨next, hi⟩, hgroups⟩ := hi
  obtain ⟨t, ht, -⟩ := Store.exists_serves hw.failures (.createServer request)
  obtain ⟨w', hw', rfl, -⟩ := goes_call hi _ ht
  refine ⟨w', Store.member (w.fleet.world.newborn request).uuid, hw', { hw with
    failures := ht.failures_eq.trans hw.failures
    groups := ?_ }⟩
  rw [(ht.created rfl).2.2.1, hgroups, hw.groups, List.foldl_cons, List.foldl_nil, Store.joinGroup,
    if_pos rfl]

/-- All of them look before any of them places. -/
theorem all_request {l : List (Fin K)} (hl : l.Nodup) (hidle : ∀ i ∈ l, w.fleet.running i = none)
    (hw : OneGroup g w.fleet.world) (hmembers : g.servers.length < maxGroupMembers) :
    ∃ w', Relation.ReflTransGen (Step Keyed K) w w' ∧ OneGroup g w'.fleet.world ∧
      (∀ j ∉ l, w'.fleet.running j = w.fleet.running j) ∧ ∀ i ∈ l, w'.Asks g.uuid i := by
  induction l generalizing w with
  | nil => exact ⟨w, .refl, hw, fun _ _ => rfl, by simp⟩
  | cons i l ih =>
    obtain ⟨hi, hl⟩ := List.nodup_cons.1 hl
    obtain ⟨v, hv, hgroup, request, ⟨next, hasks⟩, hrequest⟩ :=
      goes_request (hidle i List.mem_cons_self) hw hmembers
    have hidle' : ∀ j ∈ l, v.fleet.running j = none := fun j hj =>
      (hv.2 j (ne_of_mem_of_not_mem hj hi)).trans (hidle j (List.mem_cons_of_mem _ hj))
    obtain ⟨w', hw', hgroup', hothers, hall⟩ := ih hl hidle' hgroup
    refine ⟨w', hv.1.trans hw', hgroup', fun j hj => ?_, fun j hj => ?_⟩
    · obtain ⟨hji, hjl⟩ := not_or.1 fun hmem => hj (List.mem_cons.2 hmem)
      exact (hothers j hjl).trans (hv.2 j hji)
    · rcases List.mem_cons.1 hj with rfl | hj
      · exact ⟨request, ⟨next, (hothers j hi).trans hasks⟩, hrequest⟩
      · exact hall j hj

/-- Each of them places a server, whatever the others have placed. -/
theorem all_place {l : List (Fin K)} (hl : l.Nodup) (hw : OneGroup g w.fleet.world)
    (hall : ∀ i ∈ l, w.Asks g.uuid i) :
    ∃ w' h, Relation.ReflTransGen (Step Keyed K) w w' ∧ OneGroup h w'.fleet.world ∧
      h.servers.length = g.servers.length + l.length := by
  induction l generalizing w g with
  | nil => exact ⟨w, g, .refl, hw, rfl⟩
  | cons i l ih =>
    obtain ⟨hi, hl⟩ := List.nodup_cons.1 hl
    obtain ⟨v, stub, hv, hgroup⟩ := goes_place hw (hall i List.mem_cons_self)
    have hall' : ∀ j ∈ l, v.Asks g.uuid j := fun j hj => by
      obtain ⟨request, habout, hrequest⟩ := hall j (List.mem_cons_of_mem _ hj)
      exact ⟨request, hv.aboutTo (ne_of_mem_of_not_mem hj hi) habout, hrequest⟩
    obtain ⟨w', h, hw', hgroup', hlength⟩ := ih hl hgroup hall'
    refine ⟨w', h, hv.1.trans hw', hgroup', ?_⟩
    rw [hlength, List.length_append, List.length_singleton, List.length_cons]
    omega

/-- A group of the key with three members. -/
def threeMembers : Store := (Store.empty.newGroup "k" "" (groupRequest "" "k").tags 3).2

/-- So many creates at once leave as many more than three members in a group. -/
theorem race_overfills (K : Nat) : ∃ w : Placements (Fin K), Reachable Keyed K threeMembers w ∧
    w.fleet.world.groups.map (·.servers.length) = [3 + K] := by
  obtain ⟨g, hthree, hmembers⟩ : ∃ g, OneGroup g threeMembers ∧ g.servers.length = 3 :=
    ⟨_, ⟨rfl, rfl, by decide, rfl⟩, rfl⟩
  have hroom : g.servers.length < maxGroupMembers := hmembers ▸ by decide
  obtain ⟨v, hv, hgroup, -, hall⟩ := all_request (w := Watched.idle notebook threeMembers)
    (List.nodup_finRange K) (fun _ _ => rfl) hthree hroom
  obtain ⟨w, h, hw, hgroup', hlength⟩ := all_place (List.nodup_finRange K) hgroup hall
  refine ⟨w, hv.trans hw, ?_⟩
  rw [hgroup'.groups, List.map_singleton, hlength, hmembers, List.length_finRange]

end Race

end Placements

end MachineProvider
