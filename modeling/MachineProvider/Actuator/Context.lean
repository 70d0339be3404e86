import MachineProvider.Actuator.Identity
import MachineProvider.Machine.Basic
/-! Everything an operation needs to know about one machine. -/
namespace MachineProvider

open Kubernetes (Secret)

/-- The key of a secret that holds the provider token. -/
def tokenKey : String := "token"

structure MachineContext where
  machine : Machine
  space : String
  identity : Identity
  spec : ProviderSpec
  token : String
deriving Inhabited

/-- A secret that must exist. -/
def requireSecret (space name : String) : Attempt Secret := do
  let found : Option Secret ← Attempt.control (.getSecret space name)
  match found with
  | some secret => return secret
  | none => throw (.secretNotFound space name)

/-- A key that a secret must have. -/
def requireKey (name key : String) (texts : StringMap String) : Attempt String :=
  match texts.get? key with
  | some text => return text
  | none => throw (.secretKeyMissing name key)

/-- The token of the secret a payload names, else the default one. -/
def resolveToken (space defaultToken : String) : Option SecretReference → Attempt String
  | none => return defaultToken
  | some reference => do
    let secret ← requireSecret space reference.name
    requireKey reference.name tokenKey secret.texts

/-- The name, namespace, cluster and payload a machine must have. -/
def Machine.essentials (m : Machine) : Except Error (String × Identity × ProviderSpec) := do
  let name ← match m.metadata.name with
    | some name => .ok name
    | none => .error (.invalidConfig "machine has no name")
  let space ← match m.metadata.namespace_ with
    | some space => .ok space
    | none => .error (.invalidConfig s!"machine {Text.quoted name} has no namespace")
  let clusterId ← match m.labels.get? clusterIdLabel with
    | some id => .ok id
    | none => .error (.missingClusterId clusterIdLabel name)
  let spec ← (ProviderSpec.ofRaw m.spec.providerValue).mapError .payload
  return (space, ⟨name, clusterId⟩, spec)

def Machine.context (m : Machine) (defaultToken : String) : Attempt MachineContext := do
  let (space, identity, spec) ← Attempt.ofExcept m.essentials
  let token ← resolveToken space defaultToken spec.tokenSecret
  return ⟨m, space, identity, spec, token⟩

end MachineProvider
