import MachineProvider.Json.Decode
import MachineProvider.Yaml
/-! Configurations that name the control plane to talk to. -/
namespace MachineProvider

open Json (Decoder Fields)

/-- An entry under a name; it may lack its content. -/
structure Named (α : Type) where
  name : String
  content : Option α

structure KubeContext where
  cluster : String
  user : Option String

structure Kubeconfig where
  clusters : List (Named (Option String))
  contexts : List (Named KubeContext)
  users : List (Named Unit)
  currentContext : Option String

namespace Kubeconfig

def named {α : Type} (type field : String) (decode : Decoder α) : Decoder (Named α) :=
  Fields.record type <|
    Named.mk <$> Fields.required "name" Decoder.text <*> Fields.nullable field decode

/-- The address of a cluster. -/
def cluster : Decoder (Option String) :=
  Fields.record "Cluster" (Fields.nullable "server" Decoder.text)

def context : Decoder KubeContext :=
  Fields.record "Context" <|
    KubeContext.mk
      <$> Fields.required "cluster" Decoder.text
      <*> Fields.nullable "user" Decoder.text

def user : Decoder Unit := Fields.record "AuthInfo" (pure ())

def decode : Decoder Kubeconfig :=
  Fields.record "Kubeconfig" <|
    Kubeconfig.mk
      <$> Fields.defaulted "clusters" (Decoder.list (named "NamedCluster" "cluster" cluster))
      <*> Fields.defaulted "contexts" (Decoder.list (named "NamedContext" "context" context))
      <*> Fields.defaulted "users" (Decoder.list (named "NamedAuthInfo" "user" user))
      <*> Fields.nullable "current-context" Decoder.text

def find? {α : Type} (name : String) (entries : List (Named α)) : Option α :=
  (entries.find? (·.name = name)).bind (·.content)

/-- Whether the user that a context names, if any, is there. -/
def knowsUser (k : Kubeconfig) (c : KubeContext) : Bool :=
  match c.user with
  | some user => (find? user k.users).isSome
  | none => true

/-- The address of the control plane: that of the current context's cluster. -/
def server? (k : Kubeconfig) : Option String := do
  let name ← k.currentContext
  let context ← find? name k.contexts
  let server ← find? context.cluster k.clusters
  if k.knowsUser context then server else none

def parse? (text : String) : Option Kubeconfig :=
  (Yaml.parse? text).bind fun v => (decode v).toOption

/-- The control plane that a file's text leads to. -/
def serverOf? (text : Option String) : Option String := do (← parse? (← text)).server?

end Kubeconfig

end MachineProvider
