import MachineProvider.Actuator.Context
import MachineProvider.Jsonnet.Render
import MachineProvider.Kubernetes.LabelSelector
/-!
The user data of a server: a template from the secret the payload names, rendered against the
machine, the secret's keys and the secrets a selector picks.
-/
namespace MachineProvider

open Kubernetes (LabelSelector Secret)

def userDataKey : String := "userData"

/-- What a template sees. -/
structure TemplateContext where
  machine : Json
  data : StringMap String
  secrets : List Json
deriving Inhabited

def TemplateContext.toJson (c : TemplateContext) : Json :=
  .record [("machine", some c.machine), ("data", some (.ofStrings c.data)),
    ("secrets", some (.array c.secrets))]

/-- The selector as a list request takes it. -/
def selectorText (s : LabelSelector) : Except Error String :=
  s.text.mapError fun operator =>
    .invalidConfig s!"unsupported label selector operator {Text.quoted operator}"

/-- The secrets a template may see; without a selector there are none. -/
def selectedSecrets (space : String) : Option LabelSelector → Attempt (List Secret)
  | none => return []
  | some selector => do
    let text ← Attempt.ofExcept (selectorText selector)
    Attempt.control (.listSecrets space text)

/-- Nothing without a secret or with an empty template. -/
def loadUserData (machine : Machine) (space : String) (spec : ProviderSpec) : Attempt String :=
  match spec.userDataSecret with
  | none => return ""
  | some reference => do
    let secret ← requireSecret space reference.name
    let source ← requireKey reference.name userDataKey secret.texts
    if source.isEmpty then return ""
    else
      let secrets ← selectedSecrets space spec.userDataSecretSelector
      let context : TemplateContext := ⟨machine.toJson, secret.texts, secrets.map Secret.toJson⟩
      Attempt.ofExcept ((renderTemplate source context.toJson).mapError .render)

end MachineProvider
