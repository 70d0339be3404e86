import MachineProvider.Proofs.Reconcile.Outline
import MachineProvider.Proofs.Simulation.Runs

/-! Interleaved passes over different machines leave at most one server to each of them. -/
namespace MachineProvider

open Cloud (Store)
open Attempt (Ends)
open Simulation (World)

variable {ι : Type} {i : Identity} {m : Machine} {s t : Store}

/-- Others never add to the servers of an identity. Its own pass may, but only up to one. -/
def oneServer (i : Identity) : Protocol Store where
  rely s t := (t.bearers i).length ≤ (s.bearers i).length
  step s _ t := (∀ j, j ≠ i → (t.bearers j).length ≤ (s.bearers j).length) ∧
    ((s.bearers i).length ≤ 1 → (t.bearers i).length ≤ 1)
  rely_refl _ := Nat.le_refl _
  rely_trans h h' := Nat.le_trans h' h

theorem oneServer_step_of_le {c : Call} (h : ∀ j, (t.bearers j).length ≤ (s.bearers j).length) :
    (oneServer i).step s c t :=
  ⟨fun j _ => h j, fun hs => Nat.le_trans (h i) hs⟩

theorem oneServer_step_of_eq {c : Call} (h : t.servers = s.servers) : (oneServer i).step s c t :=
  oneServer_step_of_le fun j => Nat.le_of_eq (congrArg List.length (Store.bearers_congr h j))

/-- So many servers of the identity, or fewer. -/
def atMost (i : Identity) (n : Nat) : Known Store.Answers (oneServer i) where
  holds s := (s.bearers i).length ≤ n
  rely h hs := Nat.le_trans h hs
  aside hc hr hs := by
    have hservers := hr.servers_eq_of_aside hc
    refine ⟨oneServer_step_of_eq hservers, ?_⟩
    rw [Store.bearers_congr hservers]
    exact hs

theorem atMost_leads {c : Call} {n : Nat} (hcreate : ∀ request, c ≠ .cloud (.createServer request))
    (hdelete : ∀ uuid, c ≠ .cloud (.deleteServer uuid)) : c.Leads (atMost i n) (atMost i n) := by
  intro s r t hs hr
  have hservers := hr.servers_eq hcreate hdelete
  refine ⟨oneServer_step_of_eq hservers, fun _ => ?_⟩
  change (t.bearers i).length ≤ n
  rw [Store.bearers_congr hservers]
  exact hs

/-- With at most one server, a lookup is never ambiguous, and finding nothing means
there is none. -/
theorem atMost_finds (hi : i.clusterId ≠ "") :
    i.Finds (atMost i 1) (atMost i 0) (fun _ => atMost i 1) Error.Plain := by
  intro s r t hs hr
  have hservers := (Store.Serves.list hr).1
  have hbearers := Store.bearers_congr hservers
  refine ⟨oneServer_step_of_eq hservers, fun candidates hok => ?_⟩
  have hs' : (s.bearers i).length ≤ 1 := hs
  refine Store.Serves.finds hi hr hok (fun hb => ?_) (fun x _ => ?_) fun _ hmany => ?_
  · exact (show (t.bearers i).length ≤ 0 by rw [hbearers, hb]; exact Nat.le_refl 0)
  · exact (show (t.bearers i).length ≤ 1 by rw [hbearers]; exact hs')
  · exact absurd hmany (Nat.not_le_of_gt (Nat.lt_succ_of_le hs'))

theorem atMost_create {request : Cloud.ServerRequest} (hi : i.carriedBy request.tags = true) :
    (Call.cloud (.createServer request)).Leads (atMost i 0) (atMost i 1) := by
  intro s r t hs hr
  have hs' : (s.bearers i).length ≤ 0 := hs
  rcases Store.Serves.create hr with ⟨⟨e, rfl⟩, hservers⟩ | ⟨_, server, rfl, htags, hservers⟩
  · refine ⟨oneServer_step_of_eq hservers, ?_⟩
    rintro ⟨_, ⟨⟩⟩
  · have hbearers := Store.bearers_append hservers (htags ▸ hi)
    have hone : (t.bearers i).length ≤ 1 := by
      rw [hbearers i, if_pos rfl, List.length_append, List.length_singleton]
      omega
    refine ⟨⟨fun j hj => ?_, fun _ => hone⟩, fun _ => hone⟩
    rw [hbearers j]
    simp [hj]

theorem atMost_delete (uuid : String) :
    (Call.cloud (.deleteServer uuid)).Leads (atMost i 1) (atMost i 1) := by
  intro s r t hs hr
  have hle : ∀ j, (t.bearers j).length ≤ (s.bearers j).length := by
    intro j
    rcases Store.Serves.delete hr with ⟨-, hservers⟩ | ⟨-, hservers⟩
    · exact Nat.le_of_eq (congrArg List.length (Store.bearers_congr hservers j))
    · rw [Store.bearers_filter hservers]
      exact List.length_filter_le ..
  exact ⟨oneServer_step_of_le hle, fun _ => Nat.le_trans (hle i) hs⟩

def convergingOne (hm : m.identity? = some i) (hi : i.clusterId ≠ "") :
    Converging Store.Answers (oneServer i) m Error.Plain where
  fresh := atMost i 1
  marked := atMost i 1
  seen := atMost i 1
  absent := atMost i 0
  present := atMost i 1
  recorded _ := atMost i 1
  settled := atMost i 1
  honest := Store.Answers.honest
  plain := id
  mark _ _ _ := atMost_leads (by rintro _ ⟨⟩) (by rintro _ ⟨⟩)
  already _ _ hs := hs
  look j hj := by
    obtain rfl : i = j := Option.some.inj (hm.symm.trans hj)
    exact atMost_finds hi
  again _ hs := hs
  found _ hs := hs
  create j request hj htags := by
    obtain rfl : i = j := Option.some.inj (hm.symm.trans hj)
    exact atMost_create htags
  main _ _ _ _ _ := atMost_leads (by rintro _ ⟨⟩) (by rintro _ ⟨⟩)
  noMain _ _ _ hs := hs
  status _ _ _ _ _ := atMost_leads (by rintro _ ⟨⟩) (by rintro _ ⟨⟩)
  noStatus _ _ _ hs := hs

def releasingOne (hm : m.identity? = some i) (hi : i.clusterId ≠ "") :
    Releasing Store.Answers (oneServer i) m Error.Plain where
  bound := atMost i 1
  found _ := atMost i 1
  free := atMost i 1
  released := atMost i 1
  honest := Store.Answers.honest
  plain := id
  look j hj := by
    obtain rfl : i = j := Option.some.inj (hm.symm.trans hj)
    intro s r t hs hr
    obtain ⟨hstep, hfound⟩ := atMost_finds hi s r t hs hr
    refine ⟨hstep, fun candidates hok => ?_⟩
    have hcase := hfound candidates hok
    cases hr : i.resolve candidates with
    | error e => rw [hr] at hcase; exact hcase
    | ok o =>
      rw [hr] at hcase
      cases o with
      | none => exact Nat.le_trans (show (t.bearers i).length ≤ 0 from hcase) (Nat.zero_le 1)
      | some x => exact hcase
  remove x := atMost_delete x.uuid
  unmark _ _ := atMost_leads (by rintro _ ⟨⟩) (by rintro _ ⟨⟩)
  bare _ _ hs := hs

theorem reconcile_keeps_one (a : Actuator) (hm : m.identity? = some i) (hi : i.clusterId ≠ "")
    (hs : (s.bearers i).length ≤ 1) :
    (ExceptT.run (a.reconcile m)).Keeps Store.Answers (oneServer i)
      (Leaves (fun _ => atMost i 1) Error.Plain) s := by
  unfold Actuator.reconcile
  split
  · exact (releasingOne hm hi).release_keeps a hs
  · exact (convergingOne hm hi).converge_keeps a hs

theorem passes_sound (a : Actuator) {ids : ι → Identity} (hids : Function.Injective ids)
    (hcluster : ∀ i, (ids i).clusterId ≠ "") :
    Fleet.Sound (passes a fun i m => m.identity? = some (ids i)) (fun i => oneServer (ids i))
      (fun i => Leaves (fun _ => atMost (ids i) 1) Error.Plain)
      (fun s => ∀ i, (s.bearers (ids i)).length ≤ 1) where
  starts i s p hs hp := by
    obtain ⟨m, hm, rfl⟩ := hp
    exact reconcile_keeps_one a hm (hcluster i) (hs i)
  step i s c t hs hstep j := by
    by_cases hj : ids j = ids i
    · rw [hj]
      exact hstep.2 (hs i)
    · exact Nat.le_trans (hstep.1 (ids j) hj) (hs j)
  others i j s c t hij hstep := hstep.1 (ids j) fun h => hij (hids h).symm
  moves s t hs h := h.elim

/-- However the passes are interleaved and whichever calls fail, no identity ever has two servers in
the store, and so no pass ends with an ambiguous identity. -/
theorem at_most_one_server [DecidableEq ι] (a : Actuator) (ids : ι → Identity)
    (hids : Function.Injective ids) (hcluster : ∀ i, (ids i).clusterId ≠ "") (s : Store)
    (hs : ∀ i, (s.bearers (ids i)).length ≤ 1) {f : Fleet ι Store (Except Error Action)}
    (h : Fleet.Reachable (passes a fun i m => m.identity? = some (ids i)) (Fleet.idle s) f) :
    (∀ i, (f.world.bearers (ids i)).length ≤ 1) ∧
      ∀ i name clusterId uuids,
        f.running i ≠ some (.done (.error (.ambiguousIdentity name clusterId uuids))) := by
  have hf := Fleet.inOrder_reachable (passes_sound a hids hcluster) h (Fleet.inOrder_idle hs)
  refine ⟨hf.1, fun i name clusterId uuids hi => ?_⟩
  exact hf.post_done hi name clusterId uuids rfl

/-- Passes over two machines of one cluster, about to start. -/
def twoPasses : Fleet Bool World (Except Error Action) :=
  ((Fleet.idle default).set true
    (some (ExceptT.run (Actuator.reconcile default (.bare "a" "c"))))).set false
    (some (ExceptT.run (Actuator.reconcile default (.bare "b" "c"))))

/-- The first of two machines of one cluster has found no server when the second one goes through
its whole pass; then the first one goes on. Either has made its server, and neither has two. -/
theorem at_most_one_server_bare :
    ∃ f : Fleet Bool Store (Except Error Action),
      Fleet.Reachable (passes default fun b m => m.identity? = some ⟨cond b "a" "b", "c"⟩)
        (Fleet.idle Store.empty) f ∧
      (∀ b, (f.world.bearers ⟨cond b "a" "b", "c"⟩).length = 1) ∧
      (∀ b, (f.world.bearers ⟨cond b "a" "b", "c"⟩).length ≤ 1) ∧
      ∀ b name clusterId uuids,
        f.running b ≠ some (.done (.error (.ambiguousIdentity name clusterId uuids))) := by
  have hids : Function.Injective fun b => (⟨cond b "a" "b", "c"⟩ : Identity) := by
    intro b b' h
    cases b <;> cases b' <;> simp_all
  have hstart : Fleet.Reachable
      (passes default fun b m => m.identity? = some ⟨cond b "a" "b", "c"⟩)
      (Fleet.idle Store.empty) (twoPasses.seenAs World.store) :=
    .tail (.single (.start rfl ⟨_, Machine.identity?_bare "a" "c", rfl⟩))
      (.start rfl ⟨_, Machine.identity?_bare "b" "c", rfl⟩)
  have hrun := hstart.trans (Fleet.reachable_follow World.store (fun _ _ => World.Answers.store rfl)
    (List.replicate 4 true ++ List.replicate 7 false ++ List.replicate 3 true) twoPasses)
  refine ⟨_, hrun, ?_, at_most_one_server default (fun b => ⟨cond b "a" "b", "c"⟩) hids (by simp)
    Store.empty (fun _ => Nat.zero_le 1) hrun⟩
  decide +kernel

end MachineProvider
