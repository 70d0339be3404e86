import MachineProvider.Proofs.Reconcile.Coexistence
import MachineProvider.Proofs.Reconcile.FinalizerGuard

/-! What a pass over a machine read earlier does to the finalizers of others. A merge patch replaces
the whole list, so theirs become what the pass has read, whatever they are by then. -/
namespace MachineProvider

open Attempt (Ends)
open Cloud (Server)
open Json (Apart Path Within at?)

variable {a : Actuator} {m stored : Machine} {patch doc : Json}

namespace Json

theorem Within.at?_apart {paths : List Path} {v : Json} {p : Path} (h : Within paths v)
    (hp : ∀ q ∈ paths, Apart p q) : v.at? p = none := by
  induction h generalizing p with
  | here hnil => exact absurd List.nil_prefix (hp [] hnil).2
  | @members paths ms hne ho h ih =>
    obtain ⟨q, hq⟩ := List.exists_mem_of_ne_nil _ hne
    cases p with
    | nil => exact absurd List.nil_prefix (hp q hq).1
    | cons s p =>
      cases s with
      | index i => rfl
      | key k =>
        rw [at?_key]
        cases hf : Entries.find? k ms with
        | none => rfl
        | some c =>
          refine ih _ (Entries.mem_of_find? hf) fun q hq => ?_
          have hapart := hp _ (mem_pathsUnder.1 hq)
          simpa [Apart, List.cons_prefix_cons] using hapart

end Json

/-- The patch of a machine that a call carries. -/
def Call.patch? : Call → Option Json
  | .control (.patchMachine _ _ patch) | .control (.patchMachineStatus _ _ patch) => some patch
  | _ => none

namespace Machine

/-- Where the finalizers stand. -/
def finalizersPath : Path := [.key "metadata", .key "finalizers"]

/-- The list a pass leaves, by the machine it has read. -/
def settledFinalizers (m : Machine) : List String :=
  if m.metadata.isDeleting then m.otherFinalizers else m.finalizers ++ [machineFinalizer]

/-- All finalizers but the own one are on both or on neither. -/
def AgreesOnOthers (m n : Machine) : Prop :=
  ∀ f, f ≠ machineFinalizer → (f ∈ m.finalizers ↔ f ∈ n.finalizers)

theorem mem_otherFinalizers {f : String} :
    f ∈ m.otherFinalizers ↔ f ∈ m.finalizers ∧ f ≠ machineFinalizer := by
  simp [otherFinalizers]

theorem agreesOnOthers_of_eq {n : Machine} (h : m.otherFinalizers = n.otherFinalizers) :
    m.AgreesOnOthers n := by
  intro f hf
  have hiff : f ∈ m.otherFinalizers ↔ f ∈ n.otherFinalizers := by rw [h]
  simpa [mem_otherFinalizers, hf] using hiff

theorem AgreesOnOthers.symm {n : Machine} (h : m.AgreesOnOthers n) : n.AgreesOnOthers m :=
  fun f hf => (h f hf).symm

theorem AgreesOnOthers.trans {n o : Machine} (h : m.AgreesOnOthers n) (h' : n.AgreesOnOthers o) :
    m.AgreesOnOthers o :=
  fun f hf => (h f hf).trans (h' f hf)

/-- The machine with another list of finalizers. -/
def withFinalizers (m : Machine) (finalizers : List String) : Machine :=
  { m with metadata := { m.metadata with finalizers := some finalizers } }

@[simp] theorem finalizers_withFinalizers (m : Machine) (fs : List String) :
    (m.withFinalizers fs).finalizers = fs := rfl

theorem otherFinalizers_settled (m stored : Machine) :
    (stored.withFinalizers m.settledFinalizers).otherFinalizers = m.otherFinalizers := by
  unfold settledFinalizers
  split
  · simp [otherFinalizers]
  · exact otherFinalizers_append m

theorem hasFinalizer_settled (m stored : Machine) :
    (stored.withFinalizers m.settledFinalizers).hasFinalizer = !m.metadata.isDeleting := by
  unfold settledFinalizers hasFinalizer
  cases m.metadata.isDeleting <;> simp [otherFinalizers]

/-- Whatever the document is, the list is there afterwards. -/
theorem at?_merge_finalizersPatch (doc : Json) (fs : List String) :
    (doc.merge (finalizersPatch fs)).at? finalizersPath = some (.array (fs.map .string)) := by
  change (doc.merge (.object [("metadata", .object [("finalizers", .array _)])])).at? _ = _
  rw [Json.merge_member (by rintro ⟨⟩), Json.merge_member (by rintro ⟨⟩)]
  simp [finalizersPath, Json.at?, Json.child?, Entries.find?_insert, Json.merge]

/-- The patches that a pass over the machine sends. -/
inductive Sends (m : Machine) : Json → Prop
  | settle (h : m.hasFinalizer = m.metadata.isDeleting) :
    m.Sends (finalizersPatch m.settledFinalizers)
  | main {x : Server} {patch : Json} (h : (m.patches (m.withServer x)).1 = some patch) :
    m.Sends patch
  | status {x : Server} {patch : Json} (h : (m.patches (m.withServer x)).2 = some patch) :
    m.Sends patch

/-- What a server is recorded with says nothing of finalizers. -/
theorem Sends.settles (h : m.Sends patch) (hf : patch.at? finalizersPath ≠ none) :
    m.hasFinalizer = m.metadata.isDeleting ∧ patch = finalizersPatch m.settledFinalizers := by
  have hforeign : ∀ q ∈ recordedPaths, Apart finalizersPath q :=
    foreign_apart finalizersPath (by simp [foreignPaths, finalizersPath])
  cases h with
  | settle h => exact ⟨h, rfl⟩
  | main h =>
    refine absurd ((within_main h).at?_apart fun q hq => hforeign q ?_) hf
    exact List.mem_append_left _ hq
  | status h =>
    refine absurd ((within_status h).at?_apart fun q hq => hforeign q ?_) hf
    exact List.mem_append_right _ hq

end Machine

section Calls

open Machine (Sends)

/-- Every patch of the call is one that the pass over the machine sends. -/
def Call.SentFor (m : Machine) (c : Call) : Prop := ∀ patch, c.patch? = some patch → m.Sends patch

theorem Call.Aside.sentFor {c : Call} (h : c.Aside) : c.SentFor m := by
  intro patch hp
  cases c with
  | control c => cases c <;> first | exact h.elim | cases hp
  | _ => cases hp

theorem recordServer_sends {ctx : MachineContext} (hctx : ctx.machine = m) (x : Server) :
    (ExceptT.run (ctx.recordServer x)).Only (Call.SentFor m)
      (Ends (fun _ => True) Error.Plain) := by
  subst hctx
  apply recordServer_only
  · rintro patch hpatch _ ⟨⟩
    exact .main hpatch
  · rintro patch hpatch _ ⟨⟩
    exact .status hpatch

theorem begin_sends (a : Actuator) (m : Machine) :
    (ExceptT.run (a.begin m)).Only (Call.SentFor m)
      (Ends (fun ctx => ctx.machine = m ∧ m.identity? = some ctx.identity) Error.Plain) :=
  (begin_only a m).mono (fun _ h => h.aside.sentFor) fun _ => id

theorem locate_sends (i : Identity) (m : Machine) :
    (ExceptT.run i.locate).Only (Call.SentFor m) (Ends (fun _ => True) fun _ => True) :=
  Attempt.only_any (locate_only i (Call.Aside.sentFor trivial))

theorem create_sends (a : Actuator) (m : Machine) :
    (ExceptT.run (a.create m)).Only (Call.SentFor m) (Ends (fun _ => True) fun _ => True) := by
  have haside : ∀ c : Call, c.Aside → c.SentFor m := fun _ h => h.sentFor
  refine Attempt.only_any <| Attempt.only_then (begin_sends a m) fun ctx hctx => ?_
  refine Attempt.only_then ((loadUserData_only m ctx.space ctx.spec).mono
    (fun c h => haside c h.aside) fun _ => id) fun userData _ => ?_
  refine Attempt.only_then ((groups_only ctx).mono haside fun _ => id) fun groups _ => ?_
  have hcreate : (ExceptT.run (ctx.createServer (ctx.serverRequest groups userData))).Only
      (Call.SentFor m) (Ends (fun _ => True) fun _ => True) := by
    refine ⟨by rintro _ ⟨⟩, fun r _ => ?_⟩
    cases (r : Except Cloud.Error Server) <;> trivial
  refine Attempt.only_then hcreate fun x _ => ?_
  refine Attempt.only_then (recordServer_sends hctx.1 x) fun _ _ => ?_
  exact (tagVolume_only ctx x a.taggingBackoff).mono (fun c h => haside c h.aside)
    fun _ _ => trivial

theorem exists_sends (a : Actuator) (m : Machine) :
    (ExceptT.run (a.exists_ m)).Only (Call.SentFor m) (Ends (fun _ => True) fun _ => True) := by
  refine Attempt.only_any <| Attempt.only_then (begin_sends a m) fun ctx _ => ?_
  exact Attempt.only_then (locate_sends ctx.identity m) fun _ _ => trivial

theorem update_sends (a : Actuator) (m : Machine) :
    (ExceptT.run (a.update m)).Only (Call.SentFor m) (Ends (fun _ => True) fun _ => True) := by
  refine Attempt.only_any <| Attempt.only_then (begin_sends a m) fun ctx hctx => ?_
  refine Attempt.only_then (locate_sends ctx.identity m) fun found _ => ?_
  cases found with
  | none => trivial
  | some x =>
    refine Attempt.only_then (recordServer_sends hctx.1 x) fun _ _ => ?_
    exact (Attempt.only_ofExcept (checkDrift_ends ctx x)).mono (fun _ => id) fun _ _ => trivial

theorem delete_sends (a : Actuator) (m : Machine) :
    (ExceptT.run (a.delete m)).Only (Call.SentFor m) (Ends (fun _ => True) fun _ => True) := by
  refine Attempt.only_any <| Attempt.only_then (begin_sends a m) fun ctx _ => ?_
  refine Attempt.only_then (locate_sends ctx.identity m) fun found _ => ?_
  cases found with
  | none => trivial
  | some x =>
    exact (Attempt.cloud_only (by rintro _ ⟨⟩)).mono (fun _ => id) fun _ _ => trivial

theorem setFinalizers_sends {fs : List String} (hfs : m.Sends (finalizersPatch fs)) :
    (ExceptT.run (m.setFinalizers fs)).Only (Call.SentFor m)
      (Ends (fun _ => True) Error.Plain) := by
  have hcall : (Call.control (.patchMachine (m.metadata.namespace_.getD "") m.metadata.anyName
      (finalizersPatch fs))).SentFor m := by
    rintro _ ⟨⟩
    exact hfs
  exact Attempt.control_only hcall

theorem release_sends (a : Actuator) (hd : m.metadata.isDeleting = true) :
    (ExceptT.run (a.release m)).Only (Call.SentFor m) fun _ => True := by
  unfold Actuator.release
  cases hm : m.hasFinalizer with
  | false => trivial
  | true =>
    have hsettled : m.settledFinalizers = m.finalizers.filter (· ≠ machineFinalizer) := if_pos hd
    have hsends := Sends.settle (hm.trans hd.symm)
    rw [hsettled] at hsends
    exact Attempt.only_then (delete_sends a m) fun _ _ =>
      Attempt.only_then (setFinalizers_sends hsends) fun _ _ => trivial

theorem converge_sends (a : Actuator) (hd : m.metadata.isDeleting = false) :
    (ExceptT.run (a.converge m)).Only (Call.SentFor m) fun _ => True := by
  have hrest : (ExceptT.run (do
      if ← a.exists_ m then a.update m else a.create m
      return Action.requeue machineResync : Attempt Action)).Only (Call.SentFor m)
      fun _ => True := by
    refine Attempt.only_then (exists_sends a m) fun known _ => ?_
    cases known with
    | true => exact Attempt.only_then (update_sends a m) fun _ _ => trivial
    | false => exact Attempt.only_then (create_sends a m) fun _ _ => trivial
  unfold Actuator.converge
  cases hm : m.hasFinalizer with
  | true => exact hrest
  | false =>
    have hsettled : m.settledFinalizers = m.finalizers ++ [machineFinalizer] := by
      simp [Machine.settledFinalizers, hd]
    have hsends := Sends.settle (hm.trans hd.symm)
    rw [hsettled] at hsends
    exact Attempt.only_then (setFinalizers_sends hsends) fun _ _ => hrest

/-- All that a pass patches: the finalizers when they are not settled, and what a server shows. -/
theorem reconcile_sends (a : Actuator) (m : Machine) :
    (ExceptT.run (a.reconcile m)).Only (Call.SentFor m) fun _ => True := by
  unfold Actuator.reconcile
  cases hd : m.metadata.isDeleting with
  | true => exact release_sends a hd
  | false => exact converge_sends a hd

end Calls

open Machine (AgreesOnOthers finalizersPath)

namespace Machine.StoredIn

/-- Only the finalizers of what is stored are patched. -/
theorem leftBut_finalizers (h : stored.StoredIn doc) (fs : List String) :
    Json.LeftBut [finalizersPath] doc (doc.merge (finalizersPatch fs)) := by
  obtain ⟨ds, rfl⟩ := h.object
  obtain ⟨ms, hms, -⟩ := h.metadata_object
  exact .merge_field hms _

end Machine.StoredIn

/-- Whatever is stored by the time a pass patches the finalizers, those of others are what the pass
has read: the own one is set or gone, nothing but the list changes, and others are dropped or
resurrected exactly if they came or went since. -/
theorem finalizer_patch_as_observed (a : Actuator) (m : Machine) :
    (ExceptT.run (a.reconcile m)).Only (fun c => ∀ patch, c.patch? = some patch →
      patch.at? finalizersPath ≠ none →
        patch = finalizersPatch m.settledFinalizers ∧ m.hasFinalizer = m.metadata.isDeleting ∧
        (∀ doc : Json, (doc.merge patch).at? finalizersPath =
          some (.array (m.settledFinalizers.map .string))) ∧
        ∀ stored doc, stored.StoredIn doc → ∃ after : Machine, after.StoredIn (doc.merge patch) ∧
          after = stored.withFinalizers m.settledFinalizers ∧
          Json.LeftBut [finalizersPath] doc (doc.merge patch) ∧
          after.hasFinalizer = !m.metadata.isDeleting ∧
          after.otherFinalizers = m.otherFinalizers ∧
          (after.AgreesOnOthers stored ↔ m.AgreesOnOthers stored)) fun _ => True := by
  refine (reconcile_sends a m).mono (fun c hc patch hp hf => ?_) fun _ => id
  obtain ⟨hsettles, rfl⟩ := (hc patch hp).settles hf
  refine ⟨rfl, hsettles, fun doc => Machine.at?_merge_finalizersPatch doc _,
    fun stored doc hstored => ?_⟩
  have hothers := Machine.otherFinalizers_settled m stored
  have hagrees := Machine.agreesOnOthers_of_eq hothers
  refine ⟨_, hstored.mergeFinalizers _, rfl, hstored.leftBut_finalizers _,
    Machine.hasFinalizer_settled m stored, hothers, ?_⟩
  exact ⟨hagrees.symm.trans, hagrees.trans⟩

/-- A first pass over a machine that is stored as it was read. -/
theorem finalizer_patch_as_observed_bare :
    ∃ after : Machine, after.StoredIn (bareDocument.merge (finalizersPatch [machineFinalizer])) ∧
      after.hasFinalizer = true ∧ after.AgreesOnOthers (.bare "a" "c") := by
  have hfirst := (finalizer_patch_as_observed default (.bare "a" "c")).1 _ rfl (by decide)
  obtain ⟨after, hafter, -, -, hown, -, hagrees⟩ := hfirst.2.2.2 _ _ bare_storedIn
  exact ⟨after, hafter, hown, hagrees.2 fun _ _ => Iff.rfl⟩

/-- Whichever finalizers the stored machine holds by the time a pass patches them, those of others
stay as they are. -/
def Actuator.SparesOthers (a : Actuator) (m : Machine) : Prop :=
  (ExceptT.run (a.reconcile m)).Only (fun c => ∀ patch, c.patch? = some patch →
    patch.at? finalizersPath ≠ none → ∀ fs doc (after : Machine),
      (m.withFinalizers fs).StoredIn doc →
      after.StoredIn (doc.merge patch) → after.AgreesOnOthers (m.withFinalizers fs)) fun _ => True

/-- A deleted machine that another controller still holds. -/
def heldMachine : Machine :=
  { Machine.bare "a" "c" with metadata := { (Machine.bare "a" "c").metadata with
      finalizers := some ["other.io/hold", machineFinalizer]
      deletionTimestamp := some ⟨0, 0⟩ } }

/-- A finalizer that comes after the machine was read is dropped, and one that goes
is resurrected. -/
theorem foreign_finalizers_overwritten :
    ¬ Actuator.SparesOthers default (.bare "a" "c") ∧
      ¬ Actuator.SparesOthers default heldMachine := by
  constructor
  · intro h
    have hstored := bare_storedIn.mergeFinalizers ["other.io/hold"]
    have hagrees := h.1 _ rfl (by decide) _ _ _ hstored (hstored.mergeFinalizers _)
    exact absurd ((hagrees "other.io/hold" (by decide)).2 (by decide)) (by decide)
  · intro h
    have hdeleted := bare_storedIn.mergeDeletion
      (show Timestamp.parse "1970-01-01T00:00:00Z" = .ok ⟨0, 0⟩ from rfl)
    have hstored := hdeleted.mergeFinalizers [machineFinalizer]
    -- The pass gets a client, finds no server and then releases the machine it has read.
    have hrelease := ((h.2 (.ok ()) trivial).2 (.ok []) trivial).1
    have hagrees := hrelease _ rfl (by decide) _ _ _ hstored (hstored.mergeFinalizers _)
    exact absurd ((hagrees "other.io/hold" (by decide)).1 (by decide)) (by decide)

end MachineProvider
