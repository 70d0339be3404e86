import MachineProvider.Proofs.Machine.Recording
import MachineProvider.Proofs.Machine.Shown
import MachineProvider.Proofs.Reconcile.Endings
import MachineProvider.Proofs.Simulation.Runs

/-! Runs in a world in which nothing is set to fail. -/
namespace MachineProvider

open Cloud (Server Store)
open Simulation (SentPatch World)

namespace Simulation.World

variable {a : Actuator} {m n : Machine} {i : Identity} {ctx : MachineContext} {x : Server}
  {w v : World}

/-- The second world has the secrets of the first and answers clients like it, and nothing is set to
fail there. -/
structure Healed (w v : World) : Prop where
  secrets : v.secrets = w.secrets
  strictTokens : v.strictTokens = w.strictTokens
  broken : v.broken = []
  failures : v.store.failures = []

/-- The world after one more look at the servers of an identity. -/
def listed (v : World) (i : Identity) : World :=
  { v with store := { v.store with
    calls := v.store.calls ++ [.listServers (some i.lookupFilter)] } }

/-- An attempt that succeeds has succeeded with both its parts. -/
theorem ok_of_run_bind {α β : Type} {y : Attempt α} {f : α → Attempt β} {b : β}
    (h : (w.run (y >>= f)).1 = .ok b) :
    ∃ c u, w.run y = (.ok c, u) ∧ (u.run (f c)).1 = .ok b := by
  obtain ⟨c, u, hy, hf⟩ := exists_of_run_bind h
  exact ⟨c, u, hy, hf ▸ h⟩

theorem run_requireSecret {space name : String} {secret : Kubernetes.Secret} {u : World}
    (hw : w.run (requireSecret space name) = (.ok secret, u)) (hv : Healed w v) :
    v.run (requireSecret space name) = (.ok secret, v) := by
  obtain ⟨found, u', hfound, hrest⟩ := ok_of_run_bind (congrArg Prod.fst hw)
  have hsame : v.findSecret space name = found := by
    change w.answerControl (.getSecret space name) = _ at hfound
    unfold answerControl at hfound
    split at hfound
    · cases hfound
    · obtain rfl := Except.ok.inj (congrArg Prod.fst hfound)
      unfold findSecret
      rw [hv.secrets]
  refine (run_bind_ok (run_getSecret (by simp [hv.broken]) space name)).trans ?_
  rw [hsame]
  cases found with
  | none => cases hrest
  | some secret' =>
    obtain rfl : secret' = secret := Except.ok.inj hrest
    rfl

/-- A token that was found is found again. -/
theorem run_resolveToken {space token defaultToken : String} {reference : Option SecretReference}
    (hw : (w.run (resolveToken space defaultToken reference)).1 = .ok token) (hv : Healed w v) :
    v.run (resolveToken space defaultToken reference) = (.ok token, v) := by
  cases reference with
  | none =>
    obtain rfl : defaultToken = token := Except.ok.inj hw
    rfl
  | some reference =>
    obtain ⟨secret, u, hsecret, hkey⟩ := ok_of_run_bind hw
    refine (run_bind_ok (run_requireSecret hsecret hv)).trans ?_
    unfold requireKey at hkey ⊢
    cases htext : secret.texts.get? tokenKey with
    | none => rw [htext] at hkey; cases hkey
    | some text =>
      rw [htext] at hkey
      obtain rfl : text = token := Except.ok.inj hkey
      rfl

theorem run_client {token : String} (hw : (w.run (Attempt.client token)).1 = .ok ())
    (hstrict : v.strictTokens = w.strictTokens) :
    v.run (Attempt.client token) = (.ok (), { v with tokens := v.tokens ++ [token] }) := by
  change (w.answerClient token).1.mapError Error.cloud = _ at hw
  change ((v.answerClient token).1.mapError Error.cloud, (v.answerClient token).2) = _
  unfold answerClient at hw ⊢
  rw [hstrict]
  split at hw
  · cases hw
  · next hgiven => rw [if_neg hgiven]; rfl

/-- What once began for a machine begins for every machine with the same essentials. -/
theorem run_begin (hw : (w.run (a.begin m)).1 = .ok ctx) (hv : Healed w v)
    (hn : n.essentials = m.essentials) :
    v.run (a.begin n) = (.ok { ctx with machine := n },
      { v with tokens := v.tokens ++ [ctx.token] }) := by
  obtain ⟨ctx', u, hcontext, hrest⟩ := ok_of_run_bind hw
  obtain ⟨_, u', hasked, hdone⟩ := ok_of_run_bind hrest
  obtain rfl : ctx' = ctx := Except.ok.inj hdone
  obtain ⟨⟨space, identity, spec⟩, t, hparts, hrest'⟩ := ok_of_run_bind (congrArg Prod.fst hcontext)
  rw [run_ofExcept] at hparts
  obtain ⟨hessentials, rfl⟩ := Prod.mk.inj hparts
  obtain ⟨token, t', htoken, hbuilt⟩ := ok_of_run_bind hrest'
  obtain rfl : ⟨m, space, identity, spec, token⟩ = ctx' := Except.ok.inj hbuilt
  have hparts' : v.run (Attempt.ofExcept n.essentials) = (.ok (space, identity, spec), v) := by
    rw [run_ofExcept, hn, hessentials]
  have htoken' := run_resolveToken (congrArg Prod.fst htoken) hv
  have hcontext' : v.run (n.context a.defaultToken) = (.ok ⟨n, space, identity, spec, token⟩, v) :=
    (run_bind_ok hparts').trans ((run_bind_ok htoken').trans rfl)
  have hstrict : v.strictTokens = u.strictTokens := by
    have halike := readsAlike_run (ExceptT.run (m.context a.defaultToken)) w
    have hu : (w.run (m.context a.defaultToken)).2 = u := congrArg Prod.snd hcontext
    rw [hv.strictTokens, ← hu]
    exact halike.strictTokens.symm
  have hclient := run_client (congrArg Prod.fst hasked) hstrict
  exact (run_bind_ok hcontext').trans ((run_bind_ok hclient).trans rfl)

/-- A lookup asks once and resolves what it is shown. -/
theorem run_lookup (h : v.store.failure? .listServers = none) (i : Identity) :
    v.run i.locate = (i.resolve (v.store.listServers (some i.lookupFilter)), v.listed i) := by
  have hworks : v.store.failure? (Cloud.Call.listServers (some i.lookupFilter)).operation = none :=
    h
  have hlist : v.run (Attempt.cloud (.listServers (some i.lookupFilter))) =
      (.ok (v.store.listServers (some i.lookupFilter)), v.listed i) := by
    rw [run_cloud, Store.answer_working hworks]
    rfl
  exact (run_bind_ok hlist).trans (run_ofExcept ..)

/-- A look at the only server. -/
theorem run_locate (hcluster : i.clusterId ≠ "") (hv : v.store.failures = [])
    (hx : v.store.bearers i = [x]) : v.run i.locate = (.ok (some x), v.listed i) := by
  rw [run_lookup (by simp [Store.failure?, hv]), Store.resolve_listServers, hx,
    String.isEmpty_eq_false_iff.2 hcluster]
  rfl

/-- The patches that record a server, as they are sent. -/
def recordPatches (ctx : MachineContext) (x : Server) : List SentPatch :=
  let (main, status) := ctx.machine.patches (ctx.machine.withServer x)
  main.toList.map (SentPatch.mk .machine ctx.space ctx.identity.name) ++
    status.toList.map (SentPatch.mk .machineStatus ctx.space ctx.identity.name)

/-- The two requests that record a server are not set to fail. -/
structure AcceptsRecords (v : World) : Prop where
  main : v.broken.contains "patch_machine" = false
  status : v.broken.contains "patch_machine_status" = false

theorem acceptsRecords (h : v.broken = []) : v.AcceptsRecords := ⟨by simp [h], by simp [h]⟩

theorem run_recordServer (ctx : MachineContext) (x : Server) (hv : v.AcceptsRecords) :
    v.run (ctx.recordServer x) =
      (.ok (), { v with patches := v.patches ++ recordPatches ctx x }) := by
  unfold MachineContext.recordServer recordPatches
  cases hp : ctx.machine.patches (ctx.machine.withServer x) with
  | mk main status =>
    cases main with
    | none => exact run_patchMachineStatus hv.status status
    | some patch =>
      have hstatus : (v.send ⟨.machine, ctx.space, ctx.identity.name, patch⟩).broken.contains
          "patch_machine_status" = false := hv.status
      refine (run_patchMachine hv.main _).trans ?_
      refine (run_patchMachineStatus hstatus status).trans ?_
      simp [send]

/-- A machine that shows the server already needs no patch. -/
theorem recordPatches_eq_nil (h : ctx.machine.withServer x = ctx.machine) :
    recordPatches ctx x = [] := by
  unfold recordPatches
  rw [h, Machine.patches_self]
  rfl

/-- The patch that sets the finalizer, as it is sent. -/
def markPatch (m : Machine) : SentPatch :=
  ⟨.machine, m.metadata.namespace_.getD "", m.metadata.anyName,
    finalizersPatch (m.finalizers ++ [machineFinalizer])⟩

/-- Without the finalizer, a pass sets it and goes on. -/
theorem run_converge_unmarked (hf : m.hasFinalizer = false) (hw : w.broken = []) :
    w.run (a.converge m) = (w.send (markPatch m)).run (do
      if ← a.exists_ m then a.update m else a.create m
      return Action.requeue machineResync : Attempt Action) := by
  unfold Actuator.converge
  rw [hf]
  exact run_patchMachine (by simp [hw]) _

/-- The world after so many passes over a machine that only looked at its server. -/
def looked (v : World) (ctx : MachineContext) (tokens looks : Nat) : World :=
  { v with
    tokens := v.tokens ++ List.replicate tokens ctx.token,
    store := { v.store with
      calls := v.store.calls ++
        List.replicate looks (.listServers (some ctx.identity.lookupFilter)) } }

variable (hbegin : (w.run (a.begin m)).1 = .ok ctx) (hn : n.essentials = m.essentials)
  (hcluster : ctx.identity.clusterId ≠ "")
include hbegin hn hcluster

theorem run_exists (hv : Healed w v) (hx : v.store.bearers ctx.identity = [x]) :
    v.run (a.exists_ n) = (.ok true, v.looked ctx 1 1) := by
  have hlocate :=
    run_locate (v := { v with tokens := v.tokens ++ [ctx.token] }) hcluster hv.failures hx
  exact (run_bind_ok (run_begin hbegin hv hn)).trans ((run_bind_ok hlocate).trans rfl)

theorem run_update (hv : Healed w v) (hx : v.store.bearers ctx.identity = [x])
    (hfits : ctx.spec.Fits x) :
    v.run (a.update n) = (.ok (), { v.looked ctx 1 1 with
      patches := v.patches ++ recordPatches { ctx with machine := n } x }) := by
  have hlocate :=
    run_locate (v := { v with tokens := v.tokens ++ [ctx.token] }) hcluster hv.failures hx
  refine (run_bind_ok (run_begin hbegin hv hn)).trans ((run_bind_ok hlocate).trans ?_)
  refine (run_bind_ok (run_recordServer (v := v.looked ctx 1 1) _ x
    (acceptsRecords hv.broken))).trans ?_
  have hdrift : { ctx with machine := n }.checkDrift x = .ok () := checkDrift_eq_ok.2 hfits
  rw [run_ofExcept, hdrift]
  rfl

/-- A pass over a machine whose server is there succeeds with two looks at it. It sends patches only
to set the finalizer and to record the server. -/
theorem run_converge (hv : Healed w v) (hx : v.store.bearers ctx.identity = [x])
    (hfits : ctx.spec.Fits x) :
    ∃ sent, v.run (a.converge n) = (.ok (.requeue machineResync),
        { v.looked ctx 2 2 with patches := v.patches ++ sent }) ∧
      (n.hasFinalizer = true → n.withServer x = n → sent = []) := by
  have hrest : ∀ u : World, Healed w u → u.store.bearers ctx.identity = [x] → u.run (do
      if ← a.exists_ n then a.update n else a.create n
      return Action.requeue machineResync : Attempt Action) = (.ok (.requeue machineResync),
        { u.looked ctx 2 2 with
          patches := u.patches ++ recordPatches { ctx with machine := n } x }) := by
    intro u hu hux
    refine (run_bind_ok (run_exists hbegin hn hcluster hu hux)).trans ?_
    have hlooked : Healed w (u.looked ctx 1 1) :=
      ⟨hu.secrets, hu.strictTokens, hu.broken, hu.failures⟩
    refine (run_bind_ok (run_update hbegin hn hcluster hlooked hux hfits)).trans ?_
    have htwice : (u.looked ctx 1 1).looked ctx 1 1 = u.looked ctx 2 2 := by
      simp [looked, List.replicate_succ]
    rw [htwice]
    rfl
  cases hf : n.hasFinalizer with
  | true =>
    unfold Actuator.converge
    rw [hf]
    exact ⟨_, hrest v hv hx, fun _ hshown => recordPatches_eq_nil hshown⟩
  | false =>
    have hmarked := hrest (v.send (markPatch n))
      ⟨hv.secrets, hv.strictTokens, hv.broken, hv.failures⟩ hx
    refine ⟨markPatch n :: recordPatches { ctx with machine := n } x, ?_, by rintro ⟨⟩⟩
    refine ((run_converge_unmarked hf hv.broken).trans hmarked).trans ?_
    simp [send, looked]

end Simulation.World

end MachineProvider
