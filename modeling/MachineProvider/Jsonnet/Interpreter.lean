import MachineProvider.Jsonnet.Layout
import MachineProvider.Jsonnet.Value
/-!
What evaluation does with places, fields and functions, over an interpreter for all that nests
below: evaluating an expression, printing a value and comparing two values.
-/
namespace MachineProvider.Jsonnet

/-- The ways down from a step of evaluation. -/
structure Interpreter where
  evaluate : Scope → Expr → Eval Value
  print : Layout → String → Value → Eval String
  equal : Value → Value → Eval Bool

namespace Interpreter

open Eval

variable (i : Interpreter)

/-- The value of a place, evaluated on first use. -/
def force (id : PlaceId) : Eval Value := do
  match (← get).places[id]? with
  | some (.value v) => return v
  | some (.delayed scope e) =>
    setPlace id .running
    let v ← i.evaluate scope e
    setPlace id (.value v)
    return v
  | _ => fail

def forceAll (ids : List PlaceId) : Eval (List Value) := ids.mapM i.force

/-- The text that a value adds to a text. -/
def textOf : Value → Eval String
  | .text s => return s
  | v => i.print .inline "" v

def evaluateBool (scope : Scope) (e : Expr) : Eval Bool := do
  match ← i.evaluate scope e with
  | .bool b => return b
  | _ => fail

/-! ### Sums -/

/-- The second object on top of the first. -/
def overlay (under above : ObjectId) : Eval Value := do
  let layers := (← objectAt above).layers ++ (← objectAt under).layers
  return .object (← object { layers })

def sum : Value → Value → Eval Value
  | .text a, b => return .text (a ++ (← i.textOf b))
  | a, .text b => return .text ((← i.textOf a) ++ b)
  | .number a, .number b => checked (.ofFloat (a.toFloat + b.toFloat))
  | .array a, .array b => return .array (a ++ b)
  | .object a, .object b => overlay a b
  | _, _ => fail

/-! ### Fields -/

/-- The scope inside an object: a base of its own hides the one around it. -/
def inside (scope : Scope) (binds : List Bind) (self : ObjectId)
    (base : List LayerId) : Eval Scope :=
  bindAll { scope with
    self := some self
    base := if base.isEmpty then scope.base else base
    root := scope.root <|> some self } binds

def fieldValue (self : ObjectId) (base : List LayerId) : FieldValue → Eval Value
  | .member scope binds e => do i.evaluate (← inside scope binds self base) e
  | .entry scope e => i.evaluate { scope with self := some self } e
  | .value v => return v

/-- The field of the first layer that has it, on top of the one below when it adds to that. -/
def stackedField (self : ObjectId) (name : String) : List LayerId → Eval (Option Value)
  | [] => return none
  | id :: below => do
    match (← layerAt id).field? name with
    | none => stackedField self name below
    | some f =>
      let own ← i.fieldValue self below f.value
      if f.adds then
        match ← stackedField self name below with
        | none => return some own
        | some under => return some (← i.sum under own)
      else return some own

/-- Fails unless the condition holds. -/
def demand (scope : Scope) (condition : Expr) : Eval Unit := do
  if ← framed (i.evaluateBool scope condition) then return else fail

def checkLayers (self : ObjectId) : List LayerId → Eval Unit
  | [] => return
  | id :: below => do
    let l ← layerAt id
    l.assertions.forM fun (condition, _) => do
      i.demand (← inside l.scope l.binds self below) condition
    checkLayers self below

/-- The assertions of an object, which hold once they have been asked. -/
def check (id : ObjectId) : Eval Unit := do
  let o ← objectAt id
  if o.checked then return
  modifyObject id ({ · with checked := true })
  i.checkLayers id o.layers

/-- A field of an object, evaluated on first use. -/
def field? (id : ObjectId) (name : String) : Eval (Option Value) := do
  i.check id
  let o ← objectAt id
  match o.known.lookup name with
  | some v => return v
  | none =>
    let v ← i.stackedField (o.stands.getD id) name o.layers
    modifyObject id fun o => { o with known := (name, v) :: o.known }
    return v

def field (id : ObjectId) (name : String) : Eval Value := do require (← i.field? id name)

/-- The names of the fields that show. -/
def shownFields (id : ObjectId) : Eval (List String) := return fieldNames (← layersOf id) false

/-! ### Functions -/

/-- The values of parameters at a call by value; a default is evaluated where the call stands. -/
def placeValues (caller : Scope) : List Param → List Value → Eval (List (String × PlaceId))
  | [], [] => return []
  | [], _ :: _ => fail
  | (name, _) :: ps, v :: vs => do
    let id ← settled v
    return (name, id) :: (← placeValues caller ps vs)
  | (_, none) :: _, [] => fail
  | (name, some default) :: ps, [] => do
    let id ← settled (← i.evaluate caller default)
    return (name, id) :: (← placeValues caller ps [])

/-- A call with values; builtin functions are called with expressions only. -/
def callValues (caller : Scope) (f : Function) (vs : List Value) : Eval Value := do
  match f with
  | .closure scope ps body =>
    let vars ← i.placeValues caller ps vs
    i.evaluate { scope with vars := vars.reverse ++ scope.vars } body
  | .builtin _ => throw .aborted
  | .missing => throw .aborted

/-! ### Comparison -/

/-- Numbers are equal when they differ by no more than the spacing of doubles at one. -/
def sameNumber (a b : Double) : Bool :=
  (a.toFloat - b.toFloat).abs ≤ Double.spacingAtOne.toFloat

def allEqual : List PlaceId → List PlaceId → Eval Bool
  | a :: as, b :: bs => do
    if ← i.equal (← i.force a) (← i.force b) then allEqual as bs else return false
  | _, _ => return true

def allFieldsEqual (a b : ObjectId) : List String → Eval Bool
  | [] => return true
  | name :: names => do
    if ← i.equal (← i.field a name) (← i.field b name) then allFieldsEqual a b names
    else return false

/-- Values of different types differ; functions cannot be compared. -/
def equalStep : Value → Value → Eval Bool
  | .null, .null => return true
  | .bool a, .bool b => return a == b
  | .number a, .number b => return sameNumber a b
  | .text a, .text b => return a == b
  | .array a, .array b =>
    if a == b then return true
    else if a.length = b.length then i.allEqual a b
    else return false
  | .object a, .object b => do
    if a = b then return true
    let names ← shownFields a
    if names == (← shownFields b) then i.allFieldsEqual a b names else return false
  | .function _, .function _ => fail
  | _, _ => return false

/-! ### Printing -/

def printStep (layout : Layout) (pad : String) : Value → Eval String
  | .null => return "null"
  | .bool b => return if b then "true" else "false"
  | .number d => return d.plainText
  | .text s => return quoted s
  | .array ids => do
    let elements ← ids.mapM fun id => do i.print layout (layout.deeper pad) (← i.force id)
    return layout.enclose pad "[" "]" elements
  | .object id => do
    i.check id
    let fields ← (← shownFields id).mapM fun name => framed do
      return quoted name ++ ": " ++ (← i.print layout (layout.deeper pad) (← i.field id name))
    return layout.enclose pad "\x7b" "\x7d" fields
  | .function _ => fail

end Interpreter

end MachineProvider.Jsonnet
