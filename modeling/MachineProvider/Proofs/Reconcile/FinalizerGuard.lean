import MachineProvider.Proofs.Reconcile.Outline
import MachineProvider.Proofs.Reconcile.Worlds

/-! While a server belongs to a stored machine, the machine carries the finalizer. -/
namespace MachineProvider

open Cloud (Server Store)
open Attempt (Ends)
open Simulation (World applied)

/-- The finalizers that others have set. -/
def Machine.otherFinalizers (m : Machine) : List String :=
  m.finalizers.filter (· ≠ machineFinalizer)

/-- A server of the machine is in the store only while the machine carries the finalizer. -/
def Machine.GuardedIn (m : Machine) (store : Store) : Prop :=
  ∀ i, m.identity? = some i → store.bearers i ≠ [] → m.hasFinalizer = true

/-- What is stored for a machine is still that machine, with the finalizers of others as they were,
and guards its server. -/
def Cluster.Guards (k : Cluster) (m₀ : Machine) : Prop :=
  ∃ m : Machine, m.StoredIn k.document ∧ m.identity? = m₀.identity? ∧
    m.otherFinalizers = m₀.otherFinalizers ∧ m.GuardedIn k.store

/-- After every call the stored machine guards its server. -/
def guardsServer (m₀ : Machine) : Protocol Cluster where
  rely := Eq
  step _ _ l := l.Guards m₀
  rely_refl _ := rfl
  rely_trans := Eq.trans

section Knowledge

variable {m m₀ : Machine} {k l : Cluster}

/-- Something known of document and servers, as long as it implies that the server is guarded. -/
def knownOf (Q : Cluster → Prop)
    (hQ : ∀ {k l : Cluster}, l.document = k.document → l.store.servers = k.store.servers →
      Q k → Q l)
    (hguards : ∀ {k}, Q k → k.Guards m₀) : Known Cluster.Answers (guardsServer m₀) where
  holds := Q
  rely h := h ▸ id
  aside hc hr hk := by
    obtain ⟨hdocument, hservers⟩ := hr.aside hc
    exact ⟨hguards (hQ hdocument hservers hk), hQ hdocument hservers hk⟩

theorem guards_congr (hdocument : l.document = k.document)
    (hservers : l.store.servers = k.store.servers) (h : k.Guards m₀) : l.Guards m₀ := by
  obtain ⟨m, hm, hi, ho, hg⟩ := h
  refine ⟨m, hdocument ▸ hm, hi, ho, fun i hi hb => hg i hi ?_⟩
  rwa [Store.bearers_congr hservers] at hb

/-- A stored machine with the finalizer guards whatever server there is. -/
theorem guards_of_hasFinalizer {doc : Json} (hdoc : k.document = doc) (hm : m.StoredIn doc)
    (hi : m.identity? = m₀.identity?) (ho : m.otherFinalizers = m₀.otherFinalizers)
    (hf : m.hasFinalizer = true) : k.Guards m₀ :=
  ⟨m, hdoc ▸ hm, hi, ho, fun _ _ _ => hf⟩

/-- The stored machine is the one that was read. -/
def asRead (m : Machine) (hi : m.identity? = m₀.identity?)
    (ho : m.otherFinalizers = m₀.otherFinalizers) : Known Cluster.Answers (guardsServer m₀) :=
  knownOf (fun k => m.StoredIn k.document ∧ m.GuardedIn k.store)
    (fun hdocument hservers hk => ⟨hdocument ▸ hk.1, fun i hi hb => hk.2 i hi (by
      rwa [Store.bearers_congr hservers] at hb)⟩)
    fun hk => ⟨m, hk.1, hi, ho, hk.2⟩

/-- The stored machine carries the finalizer and is otherwise, as far as patches for a server go,
the one that was read. -/
structure Marked (m m₀ m₁ : Machine) : Prop where
  finalizer : m₁.hasFinalizer = true
  others : m₁.otherFinalizers = m₀.otherFinalizers
  name : m₁.metadata.name = m.metadata.name
  labels : m₁.metadata.labels = m.metadata.labels
  providerId : m₁.spec.providerId = m.spec.providerId
  status : m₁.status = m.status

theorem Marked.identity? {m₁ : Machine} (h : Marked m m₀ m₁) : m₁.identity? = m.identity? := by
  simp [Machine.identity?, Machine.labels, h.name, h.labels]

def marked (m : Machine) (hi : m.identity? = m₀.identity?) :
    Known Cluster.Answers (guardsServer m₀) :=
  knownOf (fun k => ∃ m₁ : Machine, m₁.StoredIn k.document ∧ Marked m m₀ m₁)
    (fun hdocument _ ⟨m₁, hm₁, h⟩ => ⟨m₁, hdocument ▸ hm₁, h⟩)
    fun ⟨_, hm₁, h⟩ => guards_of_hasFinalizer rfl hm₁ (h.identity?.trans hi) h.others h.finalizer

/-- After the main patch for a server only the status is as it was read. -/
def recorded (m m₀ : Machine) : Known Cluster.Answers (guardsServer m₀) :=
  knownOf (fun k => ∃ m₁ : Machine, m₁.StoredIn k.document ∧ m₁.hasFinalizer = true ∧
      m₁.otherFinalizers = m₀.otherFinalizers ∧ m₁.identity? = m₀.identity? ∧ m₁.status = m.status)
    (fun hdocument _ ⟨m₁, hm₁, h⟩ => ⟨m₁, hdocument ▸ hm₁, h⟩)
    fun ⟨_, hm₁, hf, ho, hi, _⟩ => guards_of_hasFinalizer rfl hm₁ hi ho hf

def guarding (m₀ : Machine) : Known Cluster.Answers (guardsServer m₀) :=
  knownOf (fun k => k.Guards m₀) guards_congr id

/-- The labels of a server never touch that of the cluster. -/
theorem identity?_withServer (m : Machine) (x : Server) :
    (m.withServer x).identity? = m.identity? := by
  have hlabels : (m.withServer x).labels.get? clusterIdLabel = m.labels.get? clusterIdLabel := by
    change
      StringMap.get? (StringMap.insert (StringMap.insert (StringMap.insert _ _ _) _ _) _ _) _ = _
    simp only [StringMap.get?_insert]
    rfl
  have hname : (m.withServer x).metadata.name = m.metadata.name := rfl
  simp only [Machine.identity?, hlabels, hname]

theorem main_stored {m₁ : Machine} {doc : Json} (hm₁ : m₁.StoredIn doc) (h : Marked m m₀ m₁)
    (hi : m.identity? = m₀.identity?) (x : Server) :
    ∃ m₂ : Machine, m₂.StoredIn (doc.mergeIfAny (m.patches (m.withServer x)).1) ∧
      m₂.hasFinalizer = true ∧ m₂.otherFinalizers = m₀.otherFinalizers ∧
      m₂.identity? = m₀.identity? ∧ m₂.status = m.status := by
  refine ⟨_, hm₁.mergeMain h.labels.symm h.providerId.symm x, h.finalizer, h.others, ?_, h.status⟩
  rw [← hi, ← identity?_withServer m x]
  simp only [Machine.identity?, Machine.labels, h.name]
  rfl

end Knowledge

section Calls

variable {m m₀ : Machine} {A B : Known Cluster.Answers (guardsServer m₀)} {patch : Json}

/-- Nothing is known without the server being guarded: a call that changes nothing shows it. -/
theorem guards_of_known {k : Cluster} (A : Known Cluster.Answers (guardsServer m₀)) (hk : A k) :
    k.Guards m₀ :=
  (A.aside (c := .sleep 0) (r := ()) trivial rfl hk).1

theorem Cluster.Patches.applied {k l : Cluster} {r : Except Error Unit}
    (h : Cluster.Patches patch k r l) :
    l = { k with document := k.document.merge patch } ∨ (¬ ∃ a, r = .ok a) ∧ l = k := by
  rcases h with ⟨-, hl⟩ | ⟨⟨e, rfl, -⟩, hl⟩
  · exact .inl hl
  · refine .inr ⟨?_, hl⟩
    rintro ⟨_, ⟨⟩⟩

/-- A patch leads on when the patched document does, since a refused one changes nothing. -/
theorem leads_of_applied {c : Call}
    (hc : ∀ k r l, Cluster.Answers k c r l →
      l = { k with document := k.document.merge patch } ∨ ¬ c.Succeeds r ∧ l = k)
    (h : ∀ k, A k → B { k with document := k.document.merge patch }) : c.Leads A B := by
  intro k r l hk hr
  rcases hc k r l hr with rfl | ⟨hfailed, rfl⟩
  · exact ⟨guards_of_known B (h k hk), fun _ => h k hk⟩
  · exact ⟨guards_of_known A hk, fun hok => absurd hok hfailed⟩

theorem patchMachine_leads {space name : String}
    (h : ∀ k, A k → B { k with document := k.document.merge patch }) :
    (Call.control (.patchMachine space name patch)).Leads A B :=
  leads_of_applied (fun _ _ _ hr => Cluster.Patches.applied hr) h

theorem patchMachineStatus_leads {space name : String}
    (h : ∀ k, A k → B { k with document := k.document.merge patch }) :
    (Call.control (.patchMachineStatus space name patch)).Leads A B :=
  leads_of_applied (fun _ _ _ hr => Cluster.Patches.applied hr) h

theorem otherFinalizers_append (m : Machine) :
    (m.finalizers ++ [machineFinalizer]).filter (· ≠ machineFinalizer) = m.otherFinalizers := by
  simp [Machine.otherFinalizers, List.filter_append]

theorem mark_stored {k : Cluster} (h : m.StoredIn k.document)
    (ho : m.otherFinalizers = m₀.otherFinalizers) :
    ∃ m₁ : Machine, m₁.StoredIn (k.document.merge
      (finalizersPatch (m.finalizers ++ [machineFinalizer]))) ∧ Marked m m₀ m₁ := by
  refine ⟨_, h.mergeFinalizers _, ?_, (otherFinalizers_append m).trans ho, rfl, rfl, rfl, rfl⟩
  simp [Machine.hasFinalizer, Machine.finalizers]

theorem marked_congr {k l : Cluster} {hi : m.identity? = m₀.identity?}
    (hdocument : l.document = k.document) (hk : (marked m hi).holds k) : (marked m hi).holds l := by
  obtain ⟨m₁, hm₁, h⟩ := hk
  exact ⟨m₁, hdocument ▸ hm₁, h⟩

def convergingGuarded (m m₀ : Machine) (hi : m.identity? = m₀.identity?)
    (ho : m.otherFinalizers = m₀.otherFinalizers) :
    Converging Cluster.Answers (guardsServer m₀) m fun _ => True where
  fresh := asRead m hi ho
  marked := marked m hi
  seen := marked m hi
  absent := marked m hi
  present := marked m hi
  recorded _ := recorded m m₀
  settled := guarding m₀
  honest := Cluster.Answers.honest
  plain _ := trivial
  mark _ _ _ := patchMachine_leads fun _ hk => mark_stored hk.1 ho
  already _ hf hk := ⟨m, hk.1, hf, ho, rfl, rfl, rfl, rfl⟩
  look i _ := by
    intro k r l hk hr
    have hl : (marked m hi).holds l := marked_congr hr.2 hk
    refine ⟨guards_of_known _ hl, fun candidates _ => ?_⟩
    cases i.resolve candidates with
    | error e => trivial
    | ok o => cases o <;> exact hl
  again _ hk := hk
  found _ hk := hk
  create i request _ _ := by
    intro k r l hk hr
    have hl : (marked m hi).holds l := marked_congr hr.2 hk
    exact ⟨guards_of_known _ hl, fun _ => hl⟩
  main x space name patch hp := patchMachine_leads fun k ⟨m₁, hm₁, h⟩ => by
    have hstored := main_stored hm₁ h hi x
    rw [hp] at hstored
    exact hstored
  noMain x k hp hk := by
    obtain ⟨m₁, hm₁, h⟩ := hk
    have hstored := main_stored hm₁ h hi x
    rw [hp] at hstored
    exact hstored
  status x space name patch hp := patchMachineStatus_leads fun k ⟨m₁, hm₁, hf, ho, hi, hs⟩ => by
    have hstored := hm₁.mergeStatus hs.symm x
    rw [hp] at hstored
    exact guards_of_hasFinalizer rfl hstored hi ho hf
  noStatus x k hp hk := by
    obtain ⟨m₁, hm₁, hf, ho, hi, hs⟩ := hk
    exact guards_of_hasFinalizer rfl hm₁ hi ho hf

/-- The stored machine is the one that was read, and these are its servers. -/
def withServers (m : Machine) (xs : List Server) (hi : m.identity? = m₀.identity?)
    (ho : m.otherFinalizers = m₀.otherFinalizers) : Known Cluster.Answers (guardsServer m₀) :=
  knownOf (fun k => m.StoredIn k.document ∧ m.GuardedIn k.store ∧
      ∀ i, m.identity? = some i → k.store.bearers i = xs)
    (fun hdocument hservers ⟨hm, hg, hx⟩ =>
      ⟨hdocument ▸ hm, fun i hi hb => hg i hi (by rwa [Store.bearers_congr hservers] at hb),
        fun i hi => (Store.bearers_congr hservers i).trans (hx i hi)⟩)
    fun ⟨hm, hg, _⟩ => ⟨m, hm, hi, ho, hg⟩

theorem asRead_finds {i : Identity} (hm : m.identity? = some i) (hcluster : i.clusterId ≠ "")
    (hi : m.identity? = m₀.identity?) (ho : m.otherFinalizers = m₀.otherFinalizers) :
    i.Finds (asRead m hi ho) (withServers m [] hi ho) (fun x => withServers m [x] hi ho)
      fun _ => True := by
  intro k r l ⟨hk, hg⟩ ⟨hserves, hdocument⟩
  have hservers := hserves.list.1
  have hbearers := Store.bearers_congr hservers
  have hguarded : m.GuardedIn l.store := fun j hj hb => hg j hj (by rwa [hbearers] at hb)
  have hknown : ∀ xs, k.store.bearers i = xs → (withServers m xs hi ho).holds l := by
    intro xs hxs
    refine ⟨hdocument ▸ hk, hguarded, fun j hj => ?_⟩
    obtain rfl : i = j := Option.some.inj (hm.symm.trans hj)
    exact (hbearers i).trans hxs
  exact ⟨⟨m, hdocument ▸ hk, hi, ho, hguarded⟩, fun candidates hok =>
    hserves.finds hcluster hok (hknown []) (fun x => hknown [x]) fun _ _ => trivial⟩

theorem delete_leads {x : Server} (hi : m.identity? = m₀.identity?)
    (ho : m.otherFinalizers = m₀.otherFinalizers) :
    (Call.cloud (.deleteServer x.uuid)).Leads (withServers m [x] hi ho)
      (withServers m [] hi ho) := by
  intro k r l hk ⟨hserves, hdocument⟩
  obtain ⟨hm, hg, hx⟩ := hk
  rcases Store.Serves.delete hserves with ⟨⟨e, rfl⟩, hservers⟩ | ⟨rfl, hservers⟩
  · have hbearers := Store.bearers_congr hservers
    refine ⟨⟨m, hdocument ▸ hm, hi, ho, fun j hj hb => hg j hj (by rwa [hbearers] at hb)⟩, ?_⟩
    rintro ⟨_, ⟨⟩⟩
  · have hgone : ∀ j, m.identity? = some j → l.store.bearers j = [] := by
      intro j hj
      rw [Store.bearers_filter hservers, hx j hj]
      simp
    have hguarded : m.GuardedIn l.store := fun j hj hb => absurd (hgone j hj) hb
    exact ⟨⟨m, hdocument ▸ hm, hi, ho, hguarded⟩, fun _ => ⟨hdocument ▸ hm, hguarded, hgone⟩⟩

def releasingGuarded (m m₀ : Machine) (hi : m.identity? = m₀.identity?)
    (ho : m.otherFinalizers = m₀.otherFinalizers)
    (hcluster : ∀ i, m.identity? = some i → i.clusterId ≠ "") :
    Releasing Cluster.Answers (guardsServer m₀) m fun _ => True where
  bound := asRead m hi ho
  found x := withServers m [x] hi ho
  free := withServers m [] hi ho
  released := guarding m₀
  honest := Cluster.Answers.honest
  plain _ := trivial
  look i hm := asRead_finds hm (hcluster i hm) hi ho
  remove x := delete_leads hi ho
  unmark _ _ := patchMachine_leads fun k ⟨hm, _, hgone⟩ => by
    refine ⟨_, hm.mergeFinalizers _, hi, ?_, fun i hi hb => absurd (hgone i hi) hb⟩
    simpa [Machine.otherFinalizers, Machine.finalizers] using ho
  bare _ _ hk := ⟨m, hk.1, hi, ho, hk.2⟩

end Calls

/-- Passes one after the other, each over the machine as it is stored when the pass starts. Between
two passes the machine may be marked as deleted. -/
def storedPasses (a : Actuator) : System Unit Cluster (Except Error Action) where
  answers := Cluster.Answers
  starts _ k p := ∃ m, Machine.decode k.document = .ok m ∧ p = ExceptT.run (a.reconcile m)
  moves k l := ∃ text t, Timestamp.parse text = .ok t ∧
    l = { k with document := k.document.merge (Machine.deletionPatch text) }

theorem storedPasses_sound (a : Actuator) {m₀ : Machine}
    (hcluster : ∀ i, m₀.identity? = some i → i.clusterId ≠ "") :
    Fleet.Sound (storedPasses a) (fun _ => guardsServer m₀)
      (fun _ => Leaves (fun _ => guarding m₀) fun _ => True) (·.Guards m₀) where
  starts _ k p hk hp := by
    obtain ⟨m, hm, rfl⟩ := hp
    obtain ⟨m', hm', hi, ho, hg⟩ := hk
    obtain rfl : m' = m := Except.ok.inj (hm'.decoded.symm.trans hm)
    unfold Actuator.reconcile
    split
    · exact (releasingGuarded m' m₀ hi ho fun i h => hcluster i (hi ▸ h)).release_keeps a ⟨hm', hg⟩
    · exact (convergingGuarded m' m₀ hi ho).converge_keeps a ⟨hm', hg⟩
  step _ _ _ _ _ hstep := hstep
  others _ _ _ _ _ hne _ := absurd rfl hne
  moves k l hk hmove := by
    obtain ⟨m, hm, hi, ho, hg⟩ := hk
    obtain ⟨text, t, ht, rfl⟩ := hmove
    exact ⟨_, hm.mergeDeletion ht, hi, ho, hg⟩

/-- After every call of every pass the stored machine, still itself and with the finalizers of
others in their order, carries the finalizer if a server of it is in the store. -/
theorem finalizer_guards_server (a : Actuator) {m₀ : Machine} {document : Json} {store : Store}
    (hstored : m₀.StoredIn document) (hcluster : ∀ i, m₀.identity? = some i → i.clusterId ≠ "")
    (hguard : m₀.GuardedIn store) {f : Fleet Unit Cluster (Except Error Action)}
    (h : Fleet.Reachable (storedPasses a) (Fleet.idle ⟨document, store⟩) f) :
    ∃ m : Machine, m.StoredIn f.world.document ∧ m.identity? = m₀.identity? ∧
      m.otherFinalizers = m₀.otherFinalizers ∧
      ∀ i, m.identity? = some i → f.world.store.bearers i ≠ [] → m.hasFinalizer = true := by
  have hstart : (⟨document, store⟩ : Cluster).Guards m₀ := ⟨m₀, hstored, rfl, rfl, hguard⟩
  exact (Fleet.inOrder_reachable (storedPasses_sound a hcluster) h (Fleet.inOrder_idle hstart)).1

/-- A first pass over a machine without the finalizer, about to start. -/
def firstPass : Fleet Unit World (Except Error Action) :=
  (Fleet.idle default).set () (some (ExceptT.run (Actuator.reconcile default (.bare "a" "c"))))

/-- The pass has just made the server. The finalizer was stored before. -/
theorem finalizer_guards_server_bare :
    ∃ f : Fleet Unit Cluster (Except Error Action),
      Fleet.Reachable (storedPasses default) (Fleet.idle ⟨bareDocument, Store.empty⟩) f ∧
      (f.world.store.bearers ⟨"a", "c"⟩).length = 1 ∧
      ∃ m : Machine, m.StoredIn f.world.document ∧ m.identity? = some ⟨"a", "c"⟩ ∧
        m.otherFinalizers = [] ∧ m.hasFinalizer = true := by
  have hcluster : ∀ i, (Machine.bare "a" "c").identity? = some i → i.clusterId ≠ "" := by
    intro i hi
    obtain rfl : (⟨"a", "c"⟩ : Identity) = i := Option.some.inj hi
    simp
  have hstart : Fleet.Reachable (storedPasses default) (Fleet.idle ⟨bareDocument, Store.empty⟩)
      ((Fleet.idle ⟨bareDocument, Store.empty⟩).set ()
        (some (ExceptT.run (Actuator.reconcile default (.bare "a" "c"))))) :=
    .single (.start rfl ⟨_, bare_storedIn.decoded, rfl⟩)
  have hrun := hstart.trans (Fleet.reachable_follow (World.cluster bareDocument)
    (World.cluster_answers bareDocument) (List.replicate 5 ()) firstPass)
  have hone : (((firstPass.follow World.answer (List.replicate 5 ())).seenAs
      (World.cluster bareDocument)).world.store.bearers ⟨"a", "c"⟩).length = 1 := by
    decide +kernel
  obtain ⟨m, hm, hi, hothers, hguard⟩ :=
    finalizer_guards_server default bare_storedIn hcluster (fun _ _ hb => absurd rfl hb) hrun
  refine ⟨_, hrun, hone, m, hm, hi, hothers, hguard _ hi fun hnone => ?_⟩
  rw [hnone] at hone
  cases hone

end MachineProvider
