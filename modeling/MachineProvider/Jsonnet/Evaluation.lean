import MachineProvider.Jsonnet.Builtin
/-!
Evaluation of expressions, one step at a time: a step evaluates what it needs at once and leaves
the rest to places. `interpreter` is the tower of steps, as high as evaluation may nest.
-/
namespace MachineProvider.Jsonnet.Interpreter

open Eval

/-! ### Operators on values -/

/-- The integer of thirty-two bits that bit operations see. -/
def bits (d : Double) : Int32 := d.toFloat.toInt32

def ofBits (n : Int32) : Value := .number (.ofInt n.toInt)

def unaryValue : UnaryOp → Value → Eval Value
  | .not, .bool b => return .bool !b
  | .minus, .number d => return .number d.negate
  | .complement, .number d => return ofBits (~~~bits d)
  | _, _ => fail

/-- The longest text that repetition may give. -/
def maxRepeated : Nat := 0x40000000

def repeated (s : String) (n : Nat) : Eval Value :=
  if maxRepeated < s.utf8ByteSize * n then throw .aborted
  else return .text (String.join (List.replicate n s))

def quotient (a b : Double) : Eval Value :=
  if sameNumber b .zero then fail else checked (.ofFloat (a.toFloat / b.toFloat))

def shifted (shift : Int32 → Int32 → Int32) (a b : Double) : Eval Value :=
  if b.toFloat < 0 then fail else return ofBits (shift (bits a) (bits b))

def textOrder (op : BinaryOp) (a b : String) : Eval Value :=
  match op with
  | .less => return .bool (a < b)
  | .greater => return .bool (b < a)
  | .atMost => return .bool (a ≤ b)
  | .atLeast => return .bool (b ≤ a)
  | _ => fail

def arithmetic (op : BinaryOp) (a b : Double) : Eval Value :=
  let x := a.toFloat
  let y := b.toFloat
  match op with
  | .less => return .bool (x < y)
  | .greater => return .bool (y < x)
  | .atMost => return .bool (x ≤ y)
  | .atLeast => return .bool (y ≤ x)
  | .subtract => checked (.ofFloat (x - y))
  | .multiply => checked (.ofFloat (x * y))
  | .divide => quotient a b
  | .modulo => return .number (a.remainder b)
  | .bitAnd => return ofBits (bits a &&& bits b)
  | .bitOr => return ofBits (bits a ||| bits b)
  | .bitXor => return ofBits (bits a ^^^ bits b)
  | .shiftLeft => shifted (· <<< ·) a b
  | .shiftRight => shifted (· >>> ·) a b
  | _ => fail

section
variable (i : Interpreter)

def binaryValue (a : Value) (op : BinaryOp) (b : Value) : Eval Value :=
  match a, op, b with
  | a, .add, b => i.sum a b
  | a, .equal, b => return .bool (← i.equal a b)
  | a, .different, b => return .bool !(← i.equal a b)
  | .text s, .isField, .object o => do return .bool (shows? s (← layersOf o)).isSome
  | .text s, .modulo, v => return .text (← i.format s v)
  | .text s, .multiply, .number n => repeated s (countOf n)
  | .bool a, .and, .bool b => return .bool (a && b)
  | .bool a, .or, .bool b => return .bool (a || b)
  | .text a, op, .text b => textOrder op a b
  | .number a, op, .number b => arithmetic op a b
  | _, _, _ => fail

/-- The right operand is not needed when the left one decides. -/
def binaryStep (scope : Scope) (left : Expr) (op : BinaryOp) (right : Expr) : Eval Value := do
  match ← i.evaluate scope left, op with
  | .bool true, .or => return .bool true
  | .bool false, .and => return .bool false
  | a, op => i.binaryValue a op (← i.evaluate scope right)

/-! ### Parts of values -/

/-- A field that the standard library lacks is a function that cannot be called. -/
def missingField (o : ObjectId) (name : String) : Eval Value := do
  match ← i.field? o "__intrinsic_namespace__" with
  | none => fail
  | some _ => return .function (((Builtin.ofName? name).map .builtin).getD .missing)

def indexed : Value → Value → Eval Value
  | .object o, .text name => framed do
    match ← i.field? o name with
    | some v => return v
    | none => i.missingField o name
  | .array ids, .number n =>
    if Format.fraction n.toFloat > Double.spacingAtOne.toFloat then fail
    else do i.force (← require ids[countOf n]?)
  | .text s, .number n => return .text (String.ofList ((s.toList.drop (countOf n)).take 1))
  | _, _ => fail

/-- Every so manieth element, the first one included. -/
def everyNth {α : Type} (n : Nat) : Nat → List α → List α
  | _, [] => []
  | 0, a :: as => a :: everyNth n (n - 1) as
  | k + 1, _ :: as => everyNth n k as

def between {α : Type} (start : Nat) (stop : Option Nat) (step : Nat) (as : List α) : List α :=
  everyNth step 0 ((as.take (stop.getD as.length)).drop start)

/-- A bound of a slice; null stands for none. -/
def bound (scope : Scope) : Option Expr → Eval (Option Nat)
  | none => return none
  | some e => do
    match ← i.evaluate scope e with
    | .null => return none
    | .number d => return some (countOf d)
    | _ => fail

def sliced (v : Value) (start stop step : Option Nat) : Eval Value := do
  let step := step.getD 1
  if step = 0 then throw .aborted
  match v with
  | .text s => return .text (String.ofList (between (start.getD 0) stop step s.toList))
  | .array ids => arrayOf (← i.forceAll (between (start.getD 0) stop step ids))
  | _ => fail

/-! ### Comprehensions and objects -/

/-- Runs the inside of a comprehension in every scope that its parts give. -/
def comprehend {α : Type} (inner : Scope → Eval α) : List Spec → Scope → Eval (List α)
  | [], scope => return [← inner scope]
  | .filter condition :: specs, scope => do
    if ← i.evaluateBool scope condition then comprehend inner specs scope else return []
  | .each name values :: specs, scope => do
    match ← i.evaluate scope values with
    | .array ids =>
      let found ← ids.mapM fun id => do
        let _ ← i.force id
        comprehend inner specs { scope with vars := (name, id) :: scope.vars }
      return found.flatten
    | _ => fail

/-- The name of a field; null leaves the field out. -/
def nameOf (scope : Scope) : FieldName → Eval (Option String)
  | .fixed name => return some name
  | .computed e => do
    match ← i.evaluate scope e with
    | .null => return none
    | .text name => return some name
    | _ => fail

def memberBinds (ms : List Member) : List Bind :=
  ms.filterMap fun
    | .bind name value => some (name, value)
    | _ => none

def memberAssertions (ms : List Member) : List (Expr × Option Expr) :=
  ms.filterMap fun
    | .assertion condition message => some (condition, message)
    | _ => none

def memberField (scope : Scope) (binds : List Bind) : Member → Eval (Option (String × Field))
  | .field name adds visibility value => do
    match ← i.nameOf scope name with
    | none => return none
    | some name => return some (name, { adds, visibility, value := .member scope binds value })
  | _ => return none

/-- The entry of an object comprehension; its variables do not see those of the comprehension. -/
def entry (scope : Scope) (binds : List Bind) (key : Expr) (adds : Bool) (value : Expr)
    (inner : Scope) : Eval (Option (String × Field)) := do
  let own := (← bindAll scope binds).vars.take binds.length
  let inner := { inner with vars := own ++ inner.vars }
  match ← i.evaluate inner key with
  | .null => return none
  | .text name => return some (name, { adds, value := .entry inner value })
  | _ => fail

/-- An object of one layer; of fields with one name the last counts. -/
def single (l : Layer) : Eval ObjectId := do
  let id ← layer { l with fields := l.fields.reverse }
  object { layers := [id] }

def objectOf (scope : Scope) : Body → Eval ObjectId
  | .members ms => do
    let binds := memberBinds ms
    let fields ← ms.mapM (i.memberField scope binds)
    single { fields := fields.filterMap id, scope, binds, assertions := memberAssertions ms }
  | .comprehension binds key adds value specs => do
    let fields ← i.comprehend (i.entry scope binds key adds value) specs scope
    single { fields := fields.filterMap id }

/-! ### Calls -/

/-- The arguments of a call under their parameters' names: none too many, no unknown name, no
name twice. -/
def matched (params : List String) (positional : List Expr) (named : List (String × Expr)) :
    Option (List (String × Expr)) :=
  let args := params.zip positional ++ named
  let names := args.map (·.1)
  if positional.length ≤ params.length ∧ names.all params.contains ∧ names.Nodup then some args
  else none

/-- An argument, evaluated at once in a strict call. -/
def argumentPlace (caller : Scope) (strict : Bool) (e : Expr) : Eval PlaceId := do
  if strict then settled (← i.evaluate caller e) else place (.delayed caller e)

/-- The scope of a function's body; defaults see the other parameters. -/
def entered (caller scope : Scope) (params : List Param) (positional : List Expr)
    (named : List (String × Expr)) (strict : Bool) : Eval Scope := do
  let args ← require (matched (params.map (·.1)) positional named)
  let vars ← args.mapM fun (name, e) => do return (name, ← i.argumentPlace caller strict e)
  let missing := params.filter fun p => (args.lookup p.1).isNone
  let defaults ← missing.mapM fun (name, default) => do return (name, ← require default)
  bindAll { scope with vars := vars.reverse ++ scope.vars } defaults

/-- The arguments of a builtin function: a name must be the one of its position. -/
def builtinArguments (b : Builtin) (positional : List Expr) (named : List (String × Expr)) :
    Option (List Expr) :=
  let args := positional ++ named.map (·.2)
  if args.length = b.params.length ∧ named.map (·.1) = b.params.drop positional.length then
    some args
  else none

def called (caller : Scope) (f : Function) (positional : List Expr) (named : List (String × Expr))
    (strict : Bool) : Eval Value :=
  match f with
  | .closure scope params body => do
    i.evaluate (← i.entered caller scope params positional named strict) body
  | .builtin b => do
    let args ← require (builtinArguments b positional named)
    i.builtin caller b (← args.mapM fun e => framed (i.evaluate caller e))
  | .missing => fail

def applyStep (scope : Scope) (function : Expr) (positional : List Expr)
    (named : List (String × Expr)) (strict : Bool) : Eval Value := do
  match ← i.evaluate scope function with
  | .function f =>
    let run := i.called scope f positional named strict
    if strict then run else framed run
  | _ => fail

/-! ### Steps -/

def evaluateStep (scope : Scope) : Expr → Eval Value
  | .null => return .null
  | .bool b => return .bool b
  | .number d => checked d
  | .text s => return .text s
  | .self => do return .object (← require scope.self)
  | .root => do return .object (← require scope.root)
  | .base =>
    if scope.base.isEmpty then fail
    else do return .object (← object { layers := scope.base, stands := scope.self })
  | .var name => framed do i.force (← require (scope.vars.lookup name))
  | .array es => do return .array (← es.mapM fun e => place (.delayed scope e))
  | .comprehension e specs => do arrayOf (← i.comprehend (i.evaluate · e) specs scope)
  | .object body => do return .object (← i.objectOf scope body)
  | .extend e body => do i.sum (← i.evaluate scope e) (.object (← i.objectOf scope body))
  | .index v key => do i.indexed (← i.evaluate scope v) (← i.evaluate scope key)
  | .slice v start stop step => do
    let v ← i.evaluate scope v
    i.sliced v (← i.bound scope start) (← i.bound scope stop) (← i.bound scope step)
  | .apply f positional named strict => i.applyStep scope f positional named strict
  | .function params body => return .function (.closure scope params body)
  | .locals binds e => do i.evaluate (← bindAll scope binds) e
  | .conditional condition yes no => do
    if ← framed (i.evaluateBool scope condition) then i.evaluate scope yes
    else
      match no with
      | some no => i.evaluate scope no
      | none => return .null
  | .assertion condition _ e => do
    i.demand scope condition
    i.evaluate scope e
  | .error e => framed do
    let _ ← i.evaluate scope e
    fail
  | .file => fail
  | .unary op e => do unaryValue op (← i.evaluate scope e)
  | .binary left op right => i.binaryStep scope left op right

end

end Interpreter

/-- Evaluation that nests at most so deep. -/
def interpreter : Nat → Interpreter
  | 0 => ⟨fun _ _ => Eval.fail, fun _ _ _ => Eval.fail, fun _ _ => Eval.fail⟩
  | depth + 1 =>
    { evaluate := fun scope e => (interpreter depth).evaluateStep scope e
      print := fun layout pad v => (interpreter depth).printStep layout pad v
      equal := fun a b => (interpreter depth).equalStep a b }

end MachineProvider.Jsonnet
