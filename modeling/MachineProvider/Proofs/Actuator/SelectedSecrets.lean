import MachineProvider.Proofs.Kubernetes.Selection
import MachineProvider.Proofs.Reconcile.Worlds
import MachineProvider.Proofs.Simulation.UserData

/-! The secrets that a template sees: those in the namespace of the machine whose labels its
selector admits. -/
namespace MachineProvider

open Kubernetes (LabelSelector Secret)
open Simulation (World)

variable {w : World} {m : Machine} {space source : String} {spec : ProviderSpec}
  {reference : SecretReference} {secret : Secret} {s : LabelSelector}

/-- The requests for secrets are not set to fail. -/
structure Simulation.World.AnswersSecrets (w : World) : Prop where
  get : w.broken.contains "get_secret" = false
  list : w.broken.contains "list_secrets" = false

/-- The stored secrets of a namespace with labels that a selector admits, as they are stored. -/
def Simulation.World.admittedSecrets (w : World) (space : String) (s : LabelSelector) :
    List Secret :=
  w.secrets.filter fun x =>
    x.metadata.namespace_ = some space ∧ s.Admits (x.metadata.labels.getD .empty)

theorem Simulation.World.admittedSecrets_of_clauses_nil (hs : s.clauses = []) (w : World)
    (space : String) :
    w.admittedSecrets space s = w.secrets.filter fun x => x.metadata.namespace_ = some space := by
  unfold World.admittedSecrets
  exact List.filter_congr fun x _ => by simp [LabelSelector.Admits, hs]

/-- Secrets are listed by the text of a selector, and selected by what it asks for. -/
theorem run_selectedSecrets (hlist : w.broken.contains "list_secrets" = false) (hs : s.Simple) :
    w.run (selectedSecrets space (some s)) = (.ok (w.admittedSecrets space s), w) := by
  obtain ⟨text, htext, hselects⟩ := hs.exists_text
  have hmatching : w.matchingSecrets space text = w.admittedSecrets space s := by
    refine List.filter_congr fun x _ => ?_
    rw [Bool.eq_iff_iff, Bool.and_eq_true, beq_iff_eq, hselects, decide_eq_true_iff]
  have hprinted : w.run (Attempt.ofExcept (selectorText s)) = (.ok text, w) := by
    rw [World.run_ofExcept, htext]
  rw [← hmatching]
  exact (World.run_bind_ok hprinted).trans (World.run_listSecrets hlist space text)

/-- A template is rendered with the machine, with the keys of its own secret, and with exactly those
secrets of the namespace whose labels its selector admits, one by one as they are stored. A selector
that is empty admits them all. -/
theorem template_sees_admitted (hw : w.AnswersSecrets)
    (hreference : spec.userDataSecret = some reference)
    (hsecret : w.findSecret space reference.name = some secret)
    (hsource : secret.texts.get? userDataKey = some source) (hne : source ≠ "")
    (hselector : spec.userDataSecretSelector = some s) (hs : s.Simple) :
    w.run (loadUserData m space spec) =
        ((renderTemplate source (TemplateContext.toJson ⟨m.toJson, secret.texts,
          (w.admittedSecrets space s).map Secret.toJson⟩)).mapError .render, w) ∧
      ((s.matchLabels.getD .empty).toList = [] → s.matchExpressions.getD [] = [] →
        w.admittedSecrets space s =
          w.secrets.filter fun x => x.metadata.namespace_ = some space) := by
  constructor
  · refine run_loadUserData hw.get hreference ?_ hsecret hsource (String.isEmpty_eq_false_iff.2 hne)
    rw [hselector]
    exact run_selectedSecrets hw.list hs
  · intro hlabels hexpressions
    refine w.admittedSecrets_of_clauses_nil ?_ space
    simp [LabelSelector.clauses, hlabels, hexpressions]

/-- A template that gives the generations of the secrets it sees. -/
def roster : String := "[s.metadata.generation for s in std.extVar('context').secrets]"

def rosterSpec (s : LabelSelector) : ProviderSpec :=
  { (default : ProviderSpec) with userDataSecret := some ⟨"t"⟩, userDataSecretSelector := some s }

/-- A secret of a generation that it is known by. -/
def labelledSecret (space : String) (generation : Int) (labels : List (String × String)) : Secret :=
  { (default : Secret) with
    metadata := { (default : Kubernetes.Metadata) with
      namespace_ := some space
      generation := some generation
      labels := some (.ofList labels) } }

def rosterSecret : Secret :=
  { (default : Secret) with
    metadata := { (default : Kubernetes.Metadata) with
      name := some "t"
      namespace_ := some "ns"
      generation := some 3 }
    data := some (.ofList [(userDataKey, Text.plainBytes roster.toList)]) }

/-- One value is empty and another holds an equality sign. -/
def pickySelector : LabelSelector where
  matchLabels := some ((StringMap.empty.insert "team" "").insert "tier" "a=b")
  matchExpressions := some [⟨"boot", "Exists", none⟩, ⟨"retired", "DoesNotExist", some ["x,y"]⟩]

/-- The first secret and the last are as that selector asks. One stands elsewhere, and of the others
one has no labels, one has another value and one has a label too many. -/
def crowdedWorld : World :=
  { (default : World) with
    secrets := [
      labelledSecret "ns" 1 [("boot", "1"), ("team", ""), ("tier", "a=b")],
      labelledSecret "elsewhere" 2 [("boot", "1"), ("team", ""), ("tier", "a=b")],
      rosterSecret,
      labelledSecret "ns" 4 [("boot", "1"), ("team", ""), ("tier", "a")],
      labelledSecret "ns" 5 [("boot", "1"), ("retired", ""), ("team", ""), ("tier", "a=b")],
      labelledSecret "ns" 6 [("boot", ""), ("team", ""), ("tier", "a=b"), ("zone", "z")]] }

def rosterContext : Json := TemplateContext.toJson
  ⟨(Machine.bare "a" "c").toJson, rosterSecret.texts,
    (crowdedWorld.admittedSecrets "ns" pickySelector).map Secret.toJson⟩

theorem roster_renders : (renderTemplate roster rosterContext).toOption = some "[1,6]" := by
  unfold renderTemplate Jsonnet.evaluated roster
  rw [Jsonnet.prelude_eq, Jsonnet.program_eq]
  simp only [Jsonnet.preludeMembers, List.map_cons, List.map_nil]
  repeat rw [String.toList_ofList]
  decide +kernel

theorem rosterSecret_text : rosterSecret.texts.get? userDataKey = some roster := by
  have hplain : roster.toList.all (fun c => decide (c.toNat < 128)) = true := by
    unfold roster
    rw [String.toList_ofList]
    decide +kernel
  rw [← ofUtf8Lossy_plainBytes hplain]
  rfl

theorem template_sees_admitted_crowded : pickySelector.Simple ∧
    crowdedWorld.run (loadUserData (Machine.bare "a" "c") "ns" (rosterSpec pickySelector)) =
      (.ok "[1,6]", crowdedWorld) ∧
    crowdedWorld.admittedSecrets "ns" default =
      crowdedWorld.secrets.filter fun x => x.metadata.namespace_ = some "ns" := by
  have hreference : ∀ s, (rosterSpec s).userDataSecret = some ⟨"t"⟩ := fun _ => rfl
  have hsecret : crowdedWorld.findSecret "ns" "t" = some rosterSecret := rfl
  have hne : roster ≠ "" := by decide +kernel
  have hpicky : pickySelector.Simple := ⟨by decide +kernel, by decide +kernel⟩
  have hempty : (default : LabelSelector).Simple := ⟨by decide, by decide⟩
  obtain ⟨hrun, -⟩ := template_sees_admitted (m := Machine.bare "a" "c") ⟨rfl, rfl⟩
    (hreference pickySelector) hsecret rosterSecret_text hne rfl hpicky
  obtain ⟨-, hall⟩ := template_sees_admitted (m := Machine.bare "a" "c") ⟨rfl, rfl⟩
    (hreference default) hsecret rosterSecret_text hne rfl hempty
  refine ⟨hpicky, hrun.trans ?_, hall rfl rfl⟩
  change ((renderTemplate roster rosterContext).mapError Error.render, _) = _
  rw [eq_ok_of_toOption roster_renders]
  rfl

end MachineProvider
