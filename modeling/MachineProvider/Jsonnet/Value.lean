import MachineProvider.Error
import MachineProvider.Jsonnet.Library
import MachineProvider.Jsonnet.Syntax
/-!
Values and the store that evaluation works on. Elements, variables and arguments are places in
the store, so each is evaluated at most once and only when it is needed. An object is a stack of
layers, the innermost override first; each layer sees the layers below it as its base.
-/
namespace MachineProvider.Jsonnet

abbrev PlaceId := Nat

abbrev LayerId := Nat

abbrev ObjectId := Nat

/-- What an expression can refer to. -/
structure Scope where
  vars : List (String × PlaceId) := []
  self : Option ObjectId := none
  base : List LayerId := []
  root : Option ObjectId := none
deriving Inhabited

inductive Function where
  | closure (scope : Scope) (params : List Param) (body : Expr)
  | builtin (b : Builtin)
  /-- A function of the standard library that there is none of; calling it fails. -/
  | missing
deriving Inhabited

inductive Value where
  | null
  | bool (value : Bool)
  | number (value : Double)
  | text (value : String)
  | array (elements : List PlaceId)
  | object (id : ObjectId)
  | function (f : Function)
deriving Inhabited

/-- What a place holds; one under evaluation that asks for itself has no value. -/
inductive Place where
  | value (v : Value)
  | delayed (scope : Scope) (e : Expr)
  | running
deriving Inhabited

inductive FieldValue where
  /-- A member of an object written out, with the object's own variables. -/
  | member (scope : Scope) (binds : List Bind) (e : Expr)
  /-- An entry of an object comprehension. -/
  | entry (scope : Scope) (e : Expr)
  | value (v : Value)
deriving Inhabited

structure Field where
  adds : Bool := false
  visibility : Visibility := .plain
  value : FieldValue
deriving Inhabited

structure Layer where
  fields : List (String × Field) := []
  scope : Scope := {}
  binds : List Bind := []
  assertions : List (Expr × Option Expr) := []
deriving Inhabited

structure Object where
  layers : List LayerId
  /-- The object that fields mean by `self`, when it is another one. -/
  stands : Option ObjectId := none
  checked : Bool := false
  known : List (String × Option Value) := []
deriving Inhabited

structure Store where
  places : Array Place := #[]
  layers : Array Layer := #[]
  objects : Array Object := #[]
  externals : List (String × PlaceId) := []
deriving Inhabited

/-- Evaluation knows how many frames are open, changes the store and may fail. -/
abbrev Eval := ReaderT Nat (StateT Store (Except RenderError))

namespace Eval

variable {α : Type}

def fail : Eval α := throw .evaluation

def maxFrames : Nat := 200

/-- Opens a frame around an evaluation. -/
def framed (run : Eval α) : Eval α := do
  if maxFrames < (← read) then fail else withReader (· + 1) run

def require (o : Option α) : Eval α :=
  match o with
  | some a => return a
  | none => fail

/-- A number that arithmetic may give. -/
def checked (d : Double) : Eval Value := if d.isFinite then return .number d else fail

/-! ### Places -/

def place (p : Place) : Eval PlaceId := do
  let id := (← get).places.size
  modify fun s => { s with places := s.places.push p }
  return id

def settled (v : Value) : Eval PlaceId := place (.value v)

def setPlace (id : PlaceId) (p : Place) : Eval Unit :=
  modify fun s => { s with places := s.places.setIfInBounds id p }

def arrayOf (vs : List Value) : Eval Value := return .array (← vs.mapM settled)

/-- Variables that may refer to each other; of one name the last counts. -/
def bindAll (scope : Scope) (binds : List Bind) : Eval Scope := do
  let first := (← get).places.size
  let names := (binds.map (·.1)).zipIdx first
  let inner := { scope with vars := names.reverse ++ scope.vars }
  binds.forM fun (_, e) => do let _ ← place (.delayed inner e)
  return inner

/-! ### Objects -/

def layer (l : Layer) : Eval LayerId := do
  let id := (← get).layers.size
  modify fun s => { s with layers := s.layers.push l }
  return id

def layerAt (id : LayerId) : Eval Layer := return (← get).layers.getD id default

def object (o : Object) : Eval ObjectId := do
  let id := (← get).objects.size
  modify fun s => { s with objects := s.objects.push o }
  return id

def objectAt (id : ObjectId) : Eval Object := return (← get).objects.getD id default

def modifyObject (id : ObjectId) (f : Object → Object) : Eval Unit :=
  modify fun s => { s with objects := s.objects.modify id f }

/-- The layers of an object, the innermost override first. -/
def layersOf (id : ObjectId) : Eval (List Layer) := do (← objectAt id).layers.mapM layerAt

end Eval

/-! ### Fields -/

namespace Layer

def field? (l : Layer) (name : String) : Option Field := l.fields.lookup name

end Layer

/-- Whether a field shows in a stack of layers; none without the field. -/
def shows? (name : String) : List Layer → Option Bool
  | [] => none
  | l :: below =>
    match l.field? name with
    | none => shows? name below
    | some f =>
      match f.visibility with
      | .hidden => some false
      | .shown => some true
      | .plain => some ((shows? name below).getD true)

/-- The names of a stack of layers, in order, each once. -/
def fieldNames (layers : List Layer) (all : Bool) : List String :=
  let names := Entries.keys (Entries.ofList (layers.flatMap (·.fields)))
  names.filter fun name => all || (shows? name layers).getD false

end MachineProvider.Jsonnet
