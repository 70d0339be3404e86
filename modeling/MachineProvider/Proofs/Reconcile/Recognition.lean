import MachineProvider.Proofs.Reconcile.Outline
import MachineProvider.Proofs.Simulation.Runs

/-! A created server is found again, by every operation that looks for it. -/
namespace MachineProvider

open Cloud (Server Store)
open Simulation (World)

variable {i : Identity} {m : Machine} {w : World} {ctx : MachineContext}

section Creation

/-- Nobody else is there, and anything may be done. -/
def alone : Protocol World where
  rely := Eq
  step _ _ _ := True
  rely_refl _ := rfl
  rely_trans := Eq.trans

/-- The identity has so many servers. -/
def exactly (i : Identity) (n : Nat) : Known World.Answers alone where
  holds v := (v.store.bearers i).length = n
  rely h := h ▸ id
  aside hc hr hu := by
    refine ⟨trivial, ?_⟩
    rw [Store.bearers_congr (hr.store.servers_eq_of_aside hc)]
    exact hu

theorem exactly_control {n : Nat} {c : ControlCall} :
    (Call.control c).Leads (exactly i n) (exactly i n) := by
  intro u r v hu hr
  refine ⟨trivial, fun _ => ?_⟩
  change (v.store.bearers i).length = n
  rw [Store.bearers_congr (hr.store.servers_eq (by rintro _ ⟨⟩) (by rintro _ ⟨⟩))]
  exact hu

theorem exactly_create {n : Nat} {request : Cloud.ServerRequest}
    (hi : i.carriedBy request.tags = true) :
    (Call.cloud (.createServer request)).Leads (exactly i n) (exactly i (n + 1)) := by
  intro u r v hu hr
  refine ⟨trivial, fun hok => ?_⟩
  change (v.store.bearers i).length = n + 1
  rcases Store.Serves.create hr.store with ⟨⟨e, rfl⟩, -⟩ | ⟨_, server, -, htags, hservers⟩
  · obtain ⟨_, ⟨⟩⟩ := hok
  · rw [Store.bearers_append hservers (htags ▸ hi), List.length_append,
      show (u.store.bearers i).length = n from hu]
    simp

def creatingOne (hm : m.identity? = some i) (n : Nat) :
    Creating World.Answers alone m fun _ => True where
  absent := exactly i n
  present := exactly i (n + 1)
  recorded _ := exactly i (n + 1)
  settled := exactly i (n + 1)
  honest hr := hr.store.honest
  plain _ := trivial
  create j request hj htags := by
    obtain rfl : i = j := Option.some.inj (hm.symm.trans hj)
    exact exactly_create htags
  main _ _ _ _ _ := exactly_control
  noMain _ _ _ hu := hu
  status _ _ _ _ _ := exactly_control
  noStatus _ _ _ hu := hu

/-- After a creation there is one server more. -/
theorem bearers_create (a : Actuator) (hm : m.identity? = some i)
    (hok : (w.run (a.create m)).1 = .ok ()) :
    ((w.run (a.create m)).2.store.bearers i).length = (w.store.bearers i).length + 1 := by
  have hw : (exactly i (w.store.bearers i).length).holds w := rfl
  have hrun := ((creatingOne hm _).create_keeps a hw).run
  change Leaves _ _ (w.run (a.create m)).1 (w.run (a.create m)).2 at hrun
  rw [hok] at hrun
  exact hrun

end Creation

section Lookup

theorem locate_run (w : World) (i : Identity) :
    (w.run i.locate).1 =
      match w.store.failure? .listServers with
      | some text => .error (.cloud (.api text))
      | none => i.resolve (w.store.listServers (some i.lookupFilter)) := by
  unfold Identity.locate
  have hcall := World.run_cloud w (.listServers (some i.lookupFilter))
  cases hf : w.store.failure? .listServers with
  | some text =>
    rw [Store.answer_failing (c := .listServers (some i.lookupFilter)) hf] at hcall
    rw [World.run_bind_error hcall]
  | none =>
    rw [Store.answer_working (c := .listServers (some i.lookupFilter)) hf] at hcall
    rw [World.run_bind_ok hcall, World.run_ofExcept]
    rfl

/-- An operation that succeeds has begun with the context of the machine. -/
theorem begin_run {α : Type} (a : Actuator) (hctx : (w.run (m.context a.defaultToken)).1 = .ok ctx)
    {f : MachineContext → Attempt α} {b : α} (hok : (w.run (a.begin m >>= f)).1 = .ok b) :
    (w.run (a.begin m)).1 = .ok ctx := by
  obtain ⟨ctx', u, hbegin, -⟩ := World.exists_of_run_bind hok
  obtain ⟨ctx'', v, hcontext, hrest⟩ :=
    World.exists_of_run_bind (congrArg Prod.fst hbegin)
  obtain rfl : ctx'' = ctx := Except.ok.inj ((congrArg Prod.fst hcontext).symm.trans hctx)
  have hclient := hrest.symm.trans hbegin
  obtain ⟨_, _, -, hdone⟩ := World.exists_of_run_bind (congrArg Prod.fst hclient)
  exact congrArg Prod.fst (hrest.trans hdone)

theorem identity?_of_context (a : Actuator)
    (hctx : (w.run (m.context a.defaultToken)).1 = .ok ctx) :
    m.identity? = some ctx.identity := by
  have hends := World.ends_run (w := w) (context_only m a.defaultToken)
  change Attempt.Ends _ _ (w.run (m.context a.defaultToken)).1 at hends
  rw [hctx] at hends
  exact hends.2

theorem identity?_of_begin (a : Actuator) {u : World} (hbegin : w.run (a.begin m) = (.ok ctx, u)) :
    m.identity? = some ctx.identity ∧ u.store = w.store := by
  have hends := World.ends_run (w := w) (begin_only a m)
  have hstore := World.store_run_of_reads (w := w) (begin_only a m)
  change Attempt.Ends _ _ (w.run (a.begin m)).1 at hends
  change (w.run (a.begin m)).2.store = w.store at hstore
  rw [hbegin] at hends hstore
  exact ⟨hends.2, hstore⟩

/-- Once the context is built, `exists_` asks for the server and nothing else. -/
theorem exists_run (a : Actuator) (hbegin : (w.run (a.begin m)).1 = .ok ctx) :
    (w.run (a.exists_ m)).1 = (w.run ctx.identity.locate).1.map Option.isSome := by
  cases hw : w.run (a.begin m) with
  | mk r u =>
    rw [hw] at hbegin
    obtain rfl : r = .ok ctx := hbegin
    unfold Actuator.exists_
    rw [World.run_bind_ok hw, locate_run w, ← (identity?_of_begin a hw).2, ← locate_run u]
    cases hl : u.run ctx.identity.locate with
    | mk r v =>
      cases r with
      | error e => rw [World.run_bind_error hl]; rfl
      | ok o => rw [World.run_bind_ok hl]; rfl

/-- The server just created is found by `exists_`, unless its cluster is empty. -/
theorem exists_create (a : Actuator) (hctx : (w.run (m.context a.defaultToken)).1 = .ok ctx)
    (hnone : w.store.bearers ctx.identity = []) (hok : (w.run (a.create m)).1 = .ok ()) :
    ((w.run (a.create m)).2.run (a.exists_ m)).1 =
      match (w.run (a.create m)).2.store.failure? .listServers with
      | some text => .error (.cloud (.api text))
      | none => .ok (decide (ctx.identity.clusterId ≠ "")) := by
  have hone := bearers_create a (identity?_of_context a hctx) hok
  have hbegin : ((w.run (a.create m)).2.run (a.begin m)).1 = .ok ctx :=
    (World.run_eq_of_reads (begin_only a m) (World.readsAlike_run ..)).trans (begin_run a hctx hok)
  obtain ⟨server, hserver⟩ := List.length_eq_one_iff.1 (hnone ▸ hone)
  rw [exists_run a hbegin, locate_run]
  cases (w.run (a.create m)).2.store.failure? .listServers with
  | some text => rfl
  | none =>
    rw [Store.resolve_listServers, hserver]
    by_cases hempty : ctx.identity.clusterId = ""
    · simp [hempty, Except.map]
    · simp [hempty, Except.map]

end Lookup

section Unrecognised

variable {action : Action} {n : Nat}

def never : Known World.Answers alone where
  holds _ := False
  rely _ := id
  aside _ _ h := h.elim

theorem exactly_finds (hi : i.clusterId = "") :
    i.Finds (exactly i n) (exactly i n) (fun _ => never) fun _ => True := by
  intro u r v hu hr
  refine ⟨trivial, fun candidates hok => ?_⟩
  rw [Store.Serves.resolve_empty hi hr.store hok]
  change (v.store.bearers i).length = n
  rw [Store.bearers_congr (Store.Serves.list hr.store).1]
  exact hu

/-- The lookup finds nothing, so another server is created. -/
def convergingMore (hm : m.identity? = some i) (hi : i.clusterId = "") (n : Nat) :
    Converging World.Answers alone m fun _ => True where
  toCreating := creatingOne hm n
  fresh := exactly i n
  marked := exactly i n
  seen := never
  mark _ _ _ := exactly_control
  already _ _ hu := hu
  look j hj := by
    obtain rfl : i = j := Option.some.inj (hm.symm.trans hj)
    exact exactly_finds hi
  again _ hu := hu.elim
  found _ hu := hu.elim

/-- The lookup finds nothing, so no server is deleted. -/
def releasingNone (hm : m.identity? = some i) (hi : i.clusterId = "") (n : Nat) :
    Releasing World.Answers alone m fun _ => True where
  bound := exactly i n
  found _ := never
  free := exactly i n
  released := exactly i n
  honest hr := hr.store.honest
  plain _ := trivial
  look j hj := by
    obtain rfl : i = j := Option.some.inj (hm.symm.trans hj)
    exact exactly_finds hi
  remove _ _ _ _ hu _ := (show False from hu).elim
  unmark _ _ := exactly_control
  bare _ _ hu := hu

/-- For an empty cluster every pass that succeeds creates another server, and the pass over the
deleted machine leaves them all in place. -/
theorem bearers_reconcile_of_empty (a : Actuator) (hm : m.identity? = some i)
    (hi : i.clusterId = "") (hok : (w.run (a.reconcile m)).1 = .ok action) :
    ((w.run (a.reconcile m)).2.store.bearers i).length =
      (w.store.bearers i).length + if m.metadata.isDeleting then 0 else 1 := by
  have hw : (exactly i (w.store.bearers i).length).holds w := rfl
  have hkeeps : (ExceptT.run (a.reconcile m)).Keeps World.Answers alone (Leaves (fun _ =>
      exactly i ((w.store.bearers i).length + if m.metadata.isDeleting then 0 else 1))
      fun _ => True) w := by
    unfold Actuator.reconcile
    cases m.metadata.isDeleting with
    | true => exact (releasingNone hm hi _).release_keeps a hw
    | false => exact (convergingMore hm hi _).converge_keeps a hw
  have hrun := hkeeps.run
  change Leaves _ _ (w.run (a.reconcile m)).1 (w.run (a.reconcile m)).2 at hrun
  rw [hok] at hrun
  exact hrun

end Unrecognised

section Kept

variable {x : Server}

/-- No server is created, and those of the identity stay. -/
def keepsServers (i : Identity) : Protocol Store where
  rely := Eq
  step s c t := (∀ request, c ≠ .cloud (.createServer request)) ∧ t.bearers i = s.bearers i
  rely_refl _ := rfl
  rely_trans := Eq.trans

/-- What is known of the servers of the identity. -/
def serversKept (i : Identity) (Q : List Server → Prop) : Known Store.Answers (keepsServers i) where
  holds s := Q (s.bearers i)
  rely h := h ▸ id
  aside hc hr hs := by
    have hbearers := Store.bearers_congr (hr.servers_eq_of_aside hc) i
    exact ⟨⟨by rintro _ rfl; exact hc, hbearers⟩, hbearers ▸ hs⟩

theorem serversKept_patch {Q : List Server → Prop} {c : ControlCall} :
    (Call.control c).Leads (serversKept i Q) (serversKept i Q) := by
  intro s r t hs hr
  have hbearers := Store.bearers_congr (hr.servers_eq (by rintro _ ⟨⟩) (by rintro _ ⟨⟩)) i
  exact ⟨⟨by rintro _ ⟨⟩, hbearers⟩, fun _ => (show Q (t.bearers i) from hbearers ▸ hs)⟩

/-- The lookup finds the only server, so nothing is ever known to be absent. -/
def convergingKept (hm : m.identity? = some i) (hi : i.clusterId ≠ "") (x : Server) :
    Converging Store.Answers (keepsServers i) m fun _ => True where
  fresh := serversKept i (· = [x])
  marked := serversKept i (· = [x])
  seen := serversKept i (· = [x])
  absent := serversKept i fun _ => False
  present := serversKept i (· = [x])
  recorded _ := serversKept i (· = [x])
  settled := serversKept i (· = [x])
  honest := Store.Answers.honest
  plain _ := trivial
  mark _ _ _ := serversKept_patch
  already _ _ hs := hs
  look j hj := by
    obtain rfl : i = j := Option.some.inj (hm.symm.trans hj)
    intro s r t hs hr
    have hbearers := Store.bearers_congr (Store.Serves.list hr).1 i
    refine ⟨⟨by rintro _ ⟨⟩, hbearers⟩, fun candidates hok => ?_⟩
    have hone : s.bearers i = [x] := hs
    rw [Store.Serves.resolve hi hr hok, hone]
    exact hbearers.trans hone
  again _ hs := hs
  found _ hs := hs
  create _ _ _ _ _ _ _ hs _ := (show False from hs).elim
  main _ _ _ _ _ := serversKept_patch
  noMain _ _ _ hs := hs
  status _ _ _ _ _ := serversKept_patch
  noStatus _ _ _ hs := hs

theorem kept_sound (a : Actuator) (hi : i.clusterId ≠ "") (x : Server) :
    Fleet.Sound
      (passes a fun (_ : Unit) m => m.identity? = some i ∧ m.metadata.isDeleting = false)
      (fun _ => keepsServers i)
      (fun _ => Leaves (fun _ => serversKept i (· = [x])) fun _ => True)
      (fun s => s.bearers i = [x]) where
  starts _ s p hs hp := by
    obtain ⟨m, ⟨hm, hliving⟩, rfl⟩ := hp
    unfold Actuator.reconcile
    rw [hliving]
    exact (convergingKept hm hi x).converge_keeps a hs
  step _ s c t hs hstep := hstep.2.trans hs
  others _ _ _ _ _ hne _ := absurd rfl hne
  moves _ _ _ h := h.elim

/-- The server stays, whatever calls fail, and no call asks for another. -/
theorem kept_reachable (a : Actuator) (hi : i.clusterId ≠ "") {x : Server} {s : Store}
    (hx : s.bearers i = [x]) {f : Fleet Unit Store (Except Error Action)}
    (h : Fleet.Reachable
      (passes a fun (_ : Unit) m => m.identity? = some i ∧ m.metadata.isDeleting = false)
      (Fleet.idle s) f) :
    f.world.bearers i = [x] ∧ ∀ request, ¬ f.AboutTo () (.cloud (.createServer request)) := by
  have horder := Fleet.inOrder_reachable (kept_sound a hi x) h (Fleet.inOrder_idle hx)
  refine ⟨horder.1, fun request hnext => ?_⟩
  -- Even a refused call would break the protocol.
  exact (horder.step_next hnext (Store.Serves.failed .http)).1 request rfl

end Kept

section Released

/-- The machine is patched only when its servers are gone. -/
def releasesLast (i : Identity) : Protocol Store where
  rely := Eq
  step s c _ := ∀ space name patch, c = .control (.patchMachine space name patch) → s.bearers i = []
  rely_refl _ := rfl
  rely_trans := Eq.trans

def serversLeft (i : Identity) (Q : List Server → Prop) : Known Store.Answers (releasesLast i) where
  holds s := Q (s.bearers i)
  rely h := h ▸ id
  aside hc hr hs := by
    have hbearers := Store.bearers_congr (hr.servers_eq_of_aside hc) i
    exact ⟨by rintro _ _ _ rfl; exact hc.elim, hbearers ▸ hs⟩

def releasingLast (hm : m.identity? = some i) (hi : i.clusterId ≠ "") :
    Releasing Store.Answers (releasesLast i) m fun _ => True where
  bound := serversLeft i fun _ => True
  found x := serversLeft i (· = [x])
  free := serversLeft i (· = [])
  released := serversLeft i fun _ => True
  honest := Store.Answers.honest
  plain _ := trivial
  look j hj := by
    obtain rfl : i = j := Option.some.inj (hm.symm.trans hj)
    intro s r t _ hr
    have hbearers := Store.bearers_congr (Store.Serves.list hr).1 i
    exact ⟨by rintro _ _ _ ⟨⟩, fun candidates hok => Store.Serves.finds hi hr hok
      (fun hb => hbearers.trans hb) (fun x hb => hbearers.trans hb) fun _ _ => trivial⟩
  remove x := by
    intro s r t hs hr
    have hone : s.bearers i = [x] := hs
    refine ⟨by rintro _ _ _ ⟨⟩, fun hok => ?_⟩
    rcases Store.Serves.delete hr with ⟨⟨e, rfl⟩, -⟩ | ⟨-, hservers⟩
    · obtain ⟨_, ⟨⟩⟩ := hok
    · change t.bearers i = []
      rw [Store.bearers_filter hservers, hone]
      simp
  unmark _ _ := fun s r t hs _ => ⟨fun _ _ _ _ => hs, fun _ => trivial⟩
  bare _ _ _ := trivial

theorem released_sound (a : Actuator) (hi : i.clusterId ≠ "") :
    Fleet.Sound
      (passes a fun (_ : Unit) m => m.identity? = some i ∧ m.metadata.isDeleting = true)
      (fun _ => releasesLast i)
      (fun _ => Leaves (fun _ => serversLeft i fun _ => True) fun _ => True)
      (fun _ => True) where
  starts _ s p _ hp := by
    obtain ⟨m, ⟨hm, hdeleting⟩, rfl⟩ := hp
    unfold Actuator.reconcile
    rw [hdeleting]
    exact (releasingLast hm hi).release_keeps a trivial
  step _ _ _ _ _ _ := trivial
  others _ _ _ _ _ hne _ := absurd rfl hne
  moves _ _ _ _ := trivial

/-- The machine is about to be patched: its servers are gone. -/
theorem released_reachable (a : Actuator) (hi : i.clusterId ≠ "") {s : Store}
    {f : Fleet Unit Store (Except Error Action)}
    (h : Fleet.Reachable
      (passes a fun (_ : Unit) m => m.identity? = some i ∧ m.metadata.isDeleting = true)
      (Fleet.idle s) f) {space name : String} {patch : Json}
    (hnext : f.AboutTo () (.control (.patchMachine space name patch))) :
    f.world.bearers i = [] := by
  have horder := Fleet.inOrder_reachable (released_sound a hi) h (Fleet.inOrder_idle trivial)
  have hrefused : f.world.Answers (.control (.patchMachine space name patch))
      (.error (.watch "")) f.world := by
    refine ⟨?_, rfl⟩
    rintro _ ⟨⟩
    trivial
  exact horder.step_next hnext hrefused space name patch rfl

end Released

/-- After a creation `exists_` sees the server, if the list can be had, exactly when the cluster is
not empty. Then passes over the machine keep that server and create no other, and passes over the
deleted machine patch it only when the server is gone. For an empty cluster every pass that succeeds
adds a server, and none is ever removed. -/
theorem created_server_recognised (a : Actuator)
    (hctx : (w.run (m.context a.defaultToken)).1 = .ok ctx)
    (hnone : w.store.bearers ctx.identity = []) (hok : (w.run (a.create m)).1 = .ok ()) :
    (((w.run (a.create m)).2.run (a.exists_ m)).1 =
      match (w.run (a.create m)).2.store.failure? .listServers with
      | some text => .error (.cloud (.api text))
      | none => .ok (decide (ctx.identity.clusterId ≠ ""))) ∧
    (ctx.identity.clusterId ≠ "" → ∃ x ∈ (w.run (a.create m)).2.store.servers,
      (∀ f, Fleet.Reachable
          (passes a fun (_ : Unit) m => m.identity? = some ctx.identity ∧
            m.metadata.isDeleting = false)
          (Fleet.idle (w.run (a.create m)).2.store) f →
        x ∈ f.world.servers ∧ ∀ request, ¬ f.AboutTo () (.cloud (.createServer request))) ∧
      ∀ s f, Fleet.Reachable
          (passes a fun (_ : Unit) m => m.identity? = some ctx.identity ∧
            m.metadata.isDeleting = true)
          (Fleet.idle s) f →
        ∀ space name patch, f.AboutTo () (.control (.patchMachine space name patch)) →
          x ∉ f.world.servers) ∧
    (ctx.identity.clusterId = "" → ∀ (v : World) (m : Machine) (action : Action),
      m.identity? = some ctx.identity → (v.run (a.reconcile m)).1 = .ok action →
        ((v.run (a.reconcile m)).2.store.bearers ctx.identity).length =
          (v.store.bearers ctx.identity).length + if m.metadata.isDeleting then 0 else 1) := by
  refine ⟨exists_create a hctx hnone hok, fun hcluster => ?_,
    fun hempty _ _ _ hm hpass => bearers_reconcile_of_empty a hm hempty hpass⟩
  have hone := bearers_create a (identity?_of_context a hctx) hok
  obtain ⟨x, hx⟩ := List.length_eq_one_iff.1 (hnone ▸ hone)
  have hmem : ∀ s : Store, s.bearers ctx.identity = [x] →
      x ∈ s.servers ∧ ctx.identity.carriedBy x.tags = true := by
    intro s hs
    exact Store.mem_bearers.1 (by simp [hs])
  refine ⟨x, (hmem _ hx).1, fun f hf => ?_, fun s f hf space name patch hnext hxf => ?_⟩
  · obtain ⟨hkept, hnext⟩ := kept_reachable a hcluster hx hf
    exact ⟨(hmem _ hkept).1, hnext⟩
  · have hgone := released_reachable a hcluster hf hnext
    have hxs : x ∈ f.world.bearers ctx.identity := Store.mem_bearers.2 ⟨hxf, (hmem _ hx).2⟩
    rw [hgone] at hxs
    cases hxs

theorem context_bare (name clusterId token : String) :
    ((default : World).run ((Machine.bare name clusterId).context token)).1 =
      .ok ⟨.bare name clusterId, "ns", ⟨name, clusterId⟩, default, token⟩ := rfl

/-- What `exists_` says right after the creation for a machine with a cluster and for
one without. -/
theorem created_server_recognised_bare :
    (((default : World).run (Actuator.create default (.bare "a" "c"))).2.run
      (Actuator.exists_ default (.bare "a" "c"))).1 = .ok true ∧
    (((default : World).run (Actuator.create default (.bare "a" ""))).2.run
      (Actuator.exists_ default (.bare "a" ""))).1 = .ok false := by
  constructor
  · exact (created_server_recognised default (context_bare "a" "c" "") rfl rfl).1.trans rfl
  · exact (created_server_recognised default (context_bare "a" "" "") rfl rfl).1.trans rfl

end MachineProvider
