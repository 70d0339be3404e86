import MachineProvider.Kubernetes.Metadata
/-! Label selectors and the text form that list requests take. -/
namespace MachineProvider.Kubernetes

open Json (Decoder Fields)

structure Requirement where
  key : String
  operator : String
  values : Option (List String)
deriving Inhabited, DecidableEq

structure LabelSelector where
  matchExpressions : Option (List Requirement)
  matchLabels : Option (StringMap String)
deriving Inhabited, DecidableEq

namespace Requirement

def decode : Decoder Requirement :=
  Fields.named "LabelSelectorRequirement" <|
    Requirement.mk
      <$> field "key" Decoder.text
      <*> field "operator" Decoder.text
      <*> Fields.nullable "values" (Decoder.list Decoder.text)

def toJson (r : Requirement) : Json :=
  .record [("key", some (.string r.key)),
    ("operator", some (.string r.operator)),
    ("values", r.values.map fun vs => .array (vs.map .string))]

/-- The term of a requirement; none for an operator that selectors do not have. -/
def term? (r : Requirement) : Option String :=
  let values := String.intercalate "," (r.values.getD [])
  match r.operator with
  | "In" => some s!"{r.key} in ({values})"
  | "NotIn" => some s!"{r.key} notin ({values})"
  | "Exists" => some r.key
  | "DoesNotExist" => some ("!" ++ r.key)
  | _ => none

end Requirement

namespace LabelSelector

def decode : Decoder LabelSelector :=
  Fields.named "LabelSelector" <|
    LabelSelector.mk
      <$> Fields.nullable "matchExpressions" (Decoder.list Requirement.decode)
      <*> Fields.nullable "matchLabels" (Decoder.map Decoder.text)

def toJson (s : LabelSelector) : Json :=
  .record [
    ("matchExpressions", s.matchExpressions.map fun rs => .array (rs.map Requirement.toJson)),
    ("matchLabels", s.matchLabels.map .ofStrings)]

/-- The terms of the expressions, or the first operator that is unknown. -/
def terms : List Requirement → Except String (List String)
  | [] => .ok []
  | r :: rs =>
    match r.term? with
    | none => .error r.operator
    | some t => (terms rs).map (t :: ·)

/-- All requirements separated by commas: labels by key, then expressions in order. -/
def text (s : LabelSelector) : Except String String := do
  let equalities := (s.matchLabels.getD .empty).toList.map fun (k, v) => s!"{k}={v}"
  let expressions ← terms (s.matchExpressions.getD [])
  return String.intercalate "," (equalities ++ expressions)

end LabelSelector

/-- One term of a selector in the simple form: `key=value`, `key` or `!key`. -/
inductive SimpleTerm where
  | equals (key value : String)
  | present (key : String)
  | absent (key : String)
deriving DecidableEq

namespace SimpleTerm

/-- Text in front of the first occurrence of a character and behind it. -/
def splitAtFirst (c : Char) : List Char → Option (List Char × List Char)
  | [] => none
  | d :: rest =>
    if d = c then some ([], rest)
    else (splitAtFirst c rest).map fun (front, back) => (d :: front, back)

def read (text : List Char) : SimpleTerm :=
  match splitAtFirst '=' text with
  | some (key, value) => .equals (String.ofList key) (String.ofList value)
  | none =>
    match text with
    | '!' :: key => .absent (String.ofList key)
    | key => .present (String.ofList key)

def holds (labels : StringMap String) : SimpleTerm → Bool
  | .equals key value => labels.get? key == some value
  | .present key => labels.contains key
  | .absent key => !labels.contains key

end SimpleTerm

/-- Whether labels satisfy every term of a selector text; empty terms ask for nothing. -/
def selects (selector : String) (labels : StringMap String) : Bool :=
  ((selector.toList.splitOn ',').filter (!·.isEmpty)).all fun t => (SimpleTerm.read t).holds labels

end MachineProvider.Kubernetes
