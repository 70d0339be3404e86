import MachineProvider.Actuator.Lifecycle
import MachineProvider.Proofs.Jsonnet.Prelude
import MachineProvider.Proofs.Simulation.Runs

/-! How a creation begins: with the token and the user data, whose template is text in a secret. -/
namespace MachineProvider

open Kubernetes (Secret)
open Simulation (World)

section Texts

/-- The bytes of plain characters. -/
def Text.plainBytes (cs : List Char) : Text.Bytes := cs.map fun c => UInt8.ofNat c.toNat

/-- Plain characters are read as they were written. -/
theorem decodeLossy_plainBytes {cs : List Char} (h : ∀ c ∈ cs, c.toNat < 128) :
    Text.decodeLossy (Text.plainBytes cs) = cs := by
  induction cs with
  | nil => unfold Text.plainBytes Text.decodeLossy; rfl
  | cons c cs ih =>
    obtain ⟨hc, hcs⟩ := List.forall_mem_cons.1 h
    have htoNat : (UInt8.ofNat c.toNat).toNat = c.toNat := by
      simp
      omega
    have hlt : UInt8.ofNat c.toNat < 0x80 := by
      rw [UInt8.lt_iff_toNat_lt, htoNat]
      exact hc
    change Text.decodeLossy (UInt8.ofNat c.toNat :: Text.plainBytes cs) = c :: cs
    rw [Text.decodeLossy, if_pos hlt, htoNat, Char.ofNat_toNat, ih hcs]

/-- A text of plain characters is the text of its bytes. -/
theorem ofUtf8Lossy_plainBytes {text : String}
    (h : text.toList.all (fun c => decide (c.toNat < 128)) = true) :
    Text.ofUtf8Lossy (Text.plainBytes text.toList) = text := by
  have hplain : ∀ c ∈ text.toList, c.toNat < 128 := fun c hc =>
    of_decide_eq_true (List.all_eq_true.1 h c hc)
  rw [Text.ofUtf8Lossy, decodeLossy_plainBytes hplain, String.ofList_toList]

end Texts

/-- Without a secret for it, the token is the default one. -/
theorem run_begin_default {w : World} (a : Actuator) {m : Machine} {space : String} {i : Identity}
    {spec : ProviderSpec} (hm : m.essentials = .ok (space, i, spec))
    (htoken : spec.tokenSecret = none) (hstrict : w.strictTokens = false) :
    w.run (a.begin m) = (.ok ⟨m, space, i, spec, a.defaultToken⟩,
      { w with tokens := w.tokens ++ [a.defaultToken] }) := by
  have hparts : w.run (Attempt.ofExcept m.essentials) = (.ok (space, i, spec), w) := by
    rw [World.run_ofExcept, hm]
  have hcontext : w.run (m.context a.defaultToken) =
      (.ok ⟨m, space, i, spec, a.defaultToken⟩, w) := by
    refine (World.run_bind_ok hparts).trans ?_
    dsimp only
    rw [htoken]
    rfl
  have hclient : w.run (Attempt.client a.defaultToken) =
      (.ok (), { w with tokens := w.tokens ++ [a.defaultToken] }) := by
    change ((w.answerClient a.defaultToken).1.mapError Error.cloud,
      (w.answerClient a.defaultToken).2) = _
    unfold World.answerClient
    rw [hstrict]
    rfl
  exact (World.run_bind_ok hcontext).trans ((World.run_bind_ok hclient).trans rfl)

/-- With its secret at hand the template decides, and it sees the secrets that are selected. -/
theorem run_loadUserData {w : World} {m : Machine} {space source : String} {spec : ProviderSpec}
    {reference : SecretReference} {secret : Secret} {secrets : List Secret}
    (hget : w.broken.contains "get_secret" = false)
    (hreference : spec.userDataSecret = some reference)
    (hselected : w.run (selectedSecrets space spec.userDataSecretSelector) = (.ok secrets, w))
    (hsecret : w.findSecret space reference.name = some secret)
    (hsource : secret.texts.get? userDataKey = some source) (hne : source.isEmpty = false) :
    w.run (loadUserData m space spec) = ((renderTemplate source
      (TemplateContext.toJson ⟨m.toJson, secret.texts, secrets.map Secret.toJson⟩)).mapError
        .render, w) := by
  have hrequire : w.run (requireSecret space reference.name) = (.ok secret, w) := by
    refine (World.run_bind_ok (World.run_getSecret hget space reference.name)).trans ?_
    rw [hsecret]
    rfl
  unfold loadUserData
  rw [hreference]
  refine (World.run_bind_ok hrequire).trans ?_
  unfold requireKey
  rw [hsource]
  refine (World.run_bind_ok (a := source) (u := w) rfl).trans ?_
  rw [hne]
  exact (World.run_bind_ok hselected).trans (World.run_ofExcept w _)

end MachineProvider
