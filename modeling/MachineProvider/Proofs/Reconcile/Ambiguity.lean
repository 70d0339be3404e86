import MachineProvider.Proofs.Simulation.Healed

/-! A lookup answers for all servers of an identity and picks none of several. Every operation on a
machine with several servers fails with the list of them and leaves the provider as it is. -/
namespace MachineProvider

open Cloud (Server Store)
open Simulation (SentPatch World)

variable {α β : Type} {a : Actuator} {m : Machine} {i : Identity} {ctx : MachineContext} {w : World}

section Lookup

/-- The servers tagged with the name and the cluster, in the order of the store. An empty
cluster has none. -/
def Cloud.Store.serversOf (s : Store) (i : Identity) : List Server :=
  s.servers.filter fun x => x.tags.get? machineNameTag = some i.name ∧
    x.tags.get? clusterIdTag = some i.clusterId ∧ i.clusterId ≠ ""

/-- The provider's filter for the name hides none of them. -/
theorem Cloud.Store.filter_lookup (s : Store) (i : Identity) :
    (s.listServers (some i.lookupFilter)).filter (fun x => i.owns x.tags) = s.serversOf i := by
  rw [Store.filter_listServers]
  unfold Store.serversOf
  by_cases hempty : i.clusterId = ""
  · simp [hempty]
  · rw [if_neg (by simpa using hempty)]
    apply List.filter_congr
    intro x _
    rw [Bool.eq_iff_iff, Identity.carriedBy_iff]
    simp [hempty]

theorem resolve_lookup (s : Store) (i : Identity) :
    i.resolve (s.listServers (some i.lookupFilter)) =
      match s.serversOf i with
      | [] => .ok none
      | [x] => .ok (some x)
      | xs => .error (.ambiguousIdentity i.name i.clusterId (xs.map (·.uuid))) := by
  rw [← s.filter_lookup i]
  rfl

theorem resolve_eq_none {s : Store} :
    i.resolve (s.listServers (some i.lookupFilter)) = .ok none ↔ s.serversOf i = [] := by
  rw [resolve_lookup]
  rcases s.serversOf i with _ | ⟨x, _ | ⟨y, rest⟩⟩ <;> simp

theorem resolve_eq_some {s : Store} {x : Server} :
    i.resolve (s.listServers (some i.lookupFilter)) = .ok (some x) ↔ s.serversOf i = [x] := by
  rw [resolve_lookup]
  rcases s.serversOf i with _ | ⟨x, _ | ⟨y, rest⟩⟩ <;> simp

theorem resolve_eq_error {s : Store} {e : Error} :
    i.resolve (s.listServers (some i.lookupFilter)) = .error e ↔
      2 ≤ (s.serversOf i).length ∧
        e = .ambiguousIdentity i.name i.clusterId ((s.serversOf i).map (·.uuid)) := by
  rw [resolve_lookup]
  rcases s.serversOf i with _ | ⟨x, _ | ⟨y, rest⟩⟩ <;> simp [eq_comm]

end Lookup

section Refusal

/-- An attempt fails with all servers of an identity, having changed nothing at the provider and
sent these patches. -/
structure Simulation.World.Refuses (w : World) (i : Identity) (x : Attempt α)
    (sent : List SentPatch) : Prop where
  result : (w.run x).1 =
    .error (.ambiguousIdentity i.name i.clusterId ((w.store.serversOf i).map (·.uuid)))
  store : w.store.Untouched (w.run x).2.store
  patches : (w.run x).2.patches = w.patches ++ sent

theorem Simulation.World.Refuses.bind {x : Attempt α} {sent : List SentPatch}
    (h : w.Refuses i x sent) (f : α → Attempt β) : w.Refuses i (x >>= f) sent := by
  have hrun := World.run_bind_error (f := f) (Prod.ext h.result rfl)
  refine ⟨?_, ?_, ?_⟩
  · rw [hrun]
  · rw [hrun]
    exact h.store
  · rw [hrun]
    exact h.patches

/-- The attempt is refused whatever it would do with a server it has looked up. -/
theorem refuses_lookup (hbegin : (w.run (a.begin m)).1 = .ok ctx) (hbroken : w.broken = [])
    (hfailures : w.store.failures = []) (hmany : 2 ≤ (w.store.serversOf ctx.identity).length)
    (f : MachineContext → Option Server → Attempt α) :
    w.Refuses ctx.identity (do
      let ctx ← a.begin m
      let found ← ctx.identity.locate
      f ctx found) [] := by
  let begun : World := { w with tokens := w.tokens ++ [ctx.token] }
  have hrun : w.run (a.begin m) = (.ok { ctx with machine := m }, begun) :=
    World.run_begin hbegin ⟨rfl, rfl, hbroken, hfailures⟩ rfl
  have hworks : begun.store.failure? .listServers = none := by
    simp [begun, Store.failure?, hfailures]
  have hfound := World.run_lookup hworks ctx.identity
  rw [resolve_eq_error.2 ⟨hmany, rfl⟩] at hfound
  have hrun' := (World.run_bind_ok (f := fun ctx => ctx.identity.locate >>= f ctx) hrun).trans
    (World.run_bind_error hfound)
  refine ⟨?_, ?_, ?_⟩
  · exact congrArg Prod.fst hrun'
  · rw [hrun']
    exact .of_calls ..
  · rw [hrun', List.append_nil]
    rfl

/-- A client is given for every token, or for every token but the empty one. -/
theorem Simulation.World.run_client_given {token : String}
    (h : w.strictTokens = false ∨ token ≠ "") :
    w.run (Attempt.client token) = (.ok (), { w with tokens := w.tokens ++ [token] }) := by
  change ((w.answerClient token).1.mapError Error.cloud, (w.answerClient token).2) = _
  unfold World.answerClient
  rw [if_neg]
  · rfl
  · rcases h with h | h <;> simp [h]

/-- With a context and a token that is good, an operation begins. -/
theorem begin_of_context (hcontext : (w.run (m.context a.defaultToken)).1 = .ok ctx)
    (htoken : w.strictTokens = false ∨ ctx.token ≠ "") : (w.run (a.begin m)).1 = .ok ctx := by
  obtain ⟨u, hrun⟩ : ∃ u, w.run (m.context a.defaultToken) = (.ok ctx, u) :=
    ⟨_, Prod.ext hcontext rfl⟩
  have hstrict : u.strictTokens = w.strictTokens := by
    have hu : (w.run (m.context a.defaultToken)).2 = u := congrArg Prod.snd hrun
    exact hu ▸ (World.readsAlike_run (ExceptT.run (m.context a.defaultToken)) w).strictTokens
  have hclient : u.run (Attempt.client ctx.token) = _ := World.run_client_given (hstrict ▸ htoken)
  have hbegin : w.run (a.begin m) = (.ok ctx, _) :=
    (World.run_bind_ok hrun).trans ((World.run_bind_ok hclient).trans rfl)
  exact congrArg Prod.fst hbegin

/-- A pass is refused as well, with the finalizer set if it is to be. -/
theorem refuses_reconcile (hbegin : (w.run (a.begin m)).1 = .ok ctx) (hbroken : w.broken = [])
    (hfailures : w.store.failures = []) (hmany : 2 ≤ (w.store.serversOf ctx.identity).length)
    (hbound : m.metadata.isDeleting = true → m.hasFinalizer = true) :
    w.Refuses ctx.identity (a.reconcile m)
      (if m.hasFinalizer then [] else [World.markPatch m]) := by
  cases hdeleting : m.metadata.isDeleting with
  | true =>
    have hf := hbound hdeleting
    rw [reconcile_deleted a hdeleting, if_pos hf]
    unfold Actuator.release
    rw [if_pos hf]
    exact (refuses_lookup hbegin hbroken hfailures hmany _).bind _
  | false =>
    rw [reconcile_living a hdeleting]
    cases hf : m.hasFinalizer with
    | true =>
      unfold Actuator.converge
      rw [hf]
      exact (refuses_lookup hbegin hbroken hfailures hmany _).bind _
    | false =>
      -- The finalizer is set first, and that changes nothing a lookup depends on.
      have halike : World.ReadsAlike w (w.send (World.markPatch m)) := ⟨rfl, rfl, rfl⟩
      have hbegin' : ((w.send (World.markPatch m)).run (a.begin m)).1 = .ok ctx :=
        (World.run_eq_of_reads (begin_only a m) halike).trans hbegin
      have hexists : (w.send (World.markPatch m)).Refuses ctx.identity (a.exists_ m) [] :=
        refuses_lookup hbegin' hbroken hfailures hmany _
      have hmarked := hexists.bind fun known => do
        if known then a.update m else a.create m
        return Action.requeue machineResync
      have hrun := World.run_converge_unmarked (a := a) hf hbroken
      refine ⟨?_, ?_, ?_⟩
      · rw [hrun]
        exact hmarked.result
      · rw [hrun]
        exact hmarked.store
      · rw [hrun]
        simpa [World.send] using hmarked.patches

end Refusal

/-- A lookup that is answered finds no server exactly if there is none, one exactly if it is the
only one, and fails exactly if there are several, with all of them in the order of the store. So do
looking for the server, looking after it, deleting it and a pass over its machine, unless the
machine is deleted and does not carry the finalizer: then the pass does nothing. The provider stays
as it is, and no patch is sent but the one that sets the finalizer. -/
theorem lookup_never_guesses (w : World) :
    (∀ i : Identity,
      (∀ text, w.store.failure? .listServers = some text →
        (w.run i.locate).1 = .error (.cloud (.api text))) ∧
      (w.store.failure? .listServers = none →
        ((w.run i.locate).1 = .ok none ↔ w.store.serversOf i = []) ∧
        (∀ x, (w.run i.locate).1 = .ok (some x) ↔ w.store.serversOf i = [x]) ∧
        (∀ e, (w.run i.locate).1 = .error e ↔ 2 ≤ (w.store.serversOf i).length ∧
          e = .ambiguousIdentity i.name i.clusterId ((w.store.serversOf i).map (·.uuid))))) ∧
    ∀ (a : Actuator) (m : Machine) (ctx : MachineContext), w.broken = [] → w.store.failures = [] →
      (w.run (m.context a.defaultToken)).1 = .ok ctx → (w.strictTokens = false ∨ ctx.token ≠ "") →
      2 ≤ (w.store.serversOf ctx.identity).length →
        w.Refuses ctx.identity (a.exists_ m) [] ∧ w.Refuses ctx.identity (a.update m) [] ∧
        w.Refuses ctx.identity (a.delete m) [] ∧
        ((m.metadata.isDeleting = true → m.hasFinalizer = true) →
          w.Refuses ctx.identity (a.reconcile m)
            (if m.hasFinalizer then [] else [World.markPatch m])) ∧
        (m.metadata.isDeleting = true → m.hasFinalizer = false →
          w.run (a.reconcile m) = (.ok .awaitChange, w)) := by
  refine ⟨fun i => ⟨fun text hfails => ?_, fun hworks => ?_⟩, ?_⟩
  · have hlist : w.run (Attempt.cloud (.listServers (some i.lookupFilter))) =
        (.error (.cloud (.api text)), w.listed i) := by
      have hanswer : w.store.answer (.listServers (some i.lookupFilter)) = _ :=
        Store.answer_failing hfails
      rw [World.run_cloud, hanswer]
      rfl
    exact congrArg Prod.fst (World.run_bind_error hlist)
  · rw [World.run_lookup hworks]
    exact ⟨resolve_eq_none, fun x => resolve_eq_some, fun e => resolve_eq_error⟩
  · intro a m ctx hbroken hfailures hcontext htoken hmany
    have hbegin := begin_of_context hcontext htoken
    refine ⟨?_, ?_, ?_, ?_, ?_⟩
    · exact refuses_lookup hbegin hbroken hfailures hmany _
    · exact refuses_lookup hbegin hbroken hfailures hmany _
    · exact refuses_lookup hbegin hbroken hfailures hmany _
    · exact refuses_reconcile hbegin hbroken hfailures hmany
    · intro hdeleting hf
      rw [reconcile_deleted a hdeleting]
      unfold Actuator.release
      rw [hf]
      rfl

/-- A provider with two servers of one machine, and one of another machine between them. -/
def twins : Store :=
  let tags := Identity.tags ⟨"a", "c"⟩
  ((((Store.empty.newServer "a" "lpg1" tags).2.newServer "b" "lpg1"
    (Identity.tags ⟨"b", "c"⟩)).2).newServer "a" "rma1" tags).2

/-- Neither of the two is deleted. -/
theorem lookup_never_guesses_twins :
    let w : World := { (default : World) with store := twins }
    (w.run (Actuator.delete default (.bare "a" "c"))).1 =
        .error (.ambiguousIdentity "a" "c" ["uuid-0001", "uuid-0003"]) ∧
      (w.run (Actuator.delete default (.bare "a" "c"))).2.store.servers = twins.servers := by
  intro w
  have hcontext : (w.run (Machine.context (.bare "a" "c") "")).1 =
      .ok ⟨.bare "a" "c", "ns", ⟨"a", "c"⟩, default, ""⟩ := by rfl
  obtain ⟨-, hall⟩ := lookup_never_guesses w
  obtain ⟨-, -, hdelete, -⟩ := hall default (.bare "a" "c") _ rfl rfl hcontext (.inl rfl)
    (by decide +kernel)
  have huuids : (w.store.serversOf ⟨"a", "c"⟩).map (·.uuid) = ["uuid-0001", "uuid-0003"] := by
    decide +kernel
  refine ⟨hdelete.result.trans ?_, hdelete.store.servers⟩
  rw [huuids]

end MachineProvider
