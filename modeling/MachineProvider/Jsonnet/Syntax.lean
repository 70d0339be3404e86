import MachineProvider.Decimal.Nearest
import MachineProvider.Json.Basic
/-!
Programs of the template language: JSON with variables, functions, conditions, comprehensions
and objects that inherit. A method is a hidden field that holds a function, and a function bound
by name is a variable that holds one.
-/
namespace MachineProvider.Jsonnet

/-- How a field shows; a plain one shows as the field that it overrides does. -/
inductive Visibility where
  | plain
  | hidden
  | shown
deriving DecidableEq, Inhabited

inductive UnaryOp where
  | minus
  | not
  | complement
deriving DecidableEq

inductive BinaryOp where
  | or
  | and
  | bitOr
  | bitXor
  | bitAnd
  | equal
  | different
  | less
  | greater
  | atMost
  | atLeast
  | isField
  | shiftLeft
  | shiftRight
  | add
  | subtract
  | multiply
  | divide
  | modulo
deriving DecidableEq

mutual
inductive Expr where
  | null
  | bool (value : Bool)
  | number (value : Double)
  | text (value : String)
  | self
  /-- The object without the fields of the innermost object written. -/
  | base
  /-- The outermost object. -/
  | root
  | var (name : String)
  | array (elements : List Expr)
  | comprehension (element : Expr) (specs : List Spec)
  | object (body : Body)
  | extend (object : Expr) (body : Body)
  | index (value key : Expr)
  | slice (value : Expr) (start stop step : Option Expr)
  | apply (function : Expr) (positional : List Expr) (named : List (String × Expr)) (strict : Bool)
  | function (params : List (String × Option Expr)) (body : Expr)
  | locals (binds : List (String × Expr)) (result : Expr)
  | conditional (condition yes : Expr) (no : Option Expr)
  | assertion (condition : Expr) (message : Option Expr) (result : Expr)
  | error (message : Expr)
  /-- Another file; templates stand alone, so there is none. -/
  | file
  | unary (op : UnaryOp) (operand : Expr)
  | binary (left : Expr) (op : BinaryOp) (right : Expr)

/-- The parts of a comprehension behind its element. -/
inductive Spec where
  | each (name : String) (values : Expr)
  | filter (condition : Expr)

inductive FieldName where
  | fixed (name : String)
  | computed (name : Expr)

inductive Member where
  | bind (name : String) (value : Expr)
  | assertion (condition : Expr) (message : Option Expr)
  | field (name : FieldName) (adds : Bool) (visibility : Visibility) (value : Expr)

inductive Body where
  | members (members : List Member)
  | comprehension (binds : List (String × Expr)) (key : Expr) (adds : Bool) (value : Expr)
      (specs : List Spec)
end

abbrev Bind := String × Expr

abbrev Param := String × Option Expr

instance : Inhabited Expr := ⟨.null⟩

/-- The number of a JSON text, its sign written as an operator. -/
def Expr.ofNumber : Json.Number → Expr
  | .integer n => signed (n < 0) (.ofNat n.natAbs)
  | .double d => if d.isNegative then signed true d.negate else .number d
where
  signed (negative : Bool) (magnitude : Double) : Expr :=
    if negative then .unary .minus (.number magnitude) else .number magnitude

mutual
/-- A JSON document as a program. -/
def Expr.ofJson : Json → Expr
  | .null => .null
  | .bool b => .bool b
  | .number n => .ofNumber n
  | .string s => .text s
  | .array es => .array (elementsOfJson es)
  | .object ms => .object (.members (membersOfJson ms))

def elementsOfJson : List Json → List Expr
  | [] => []
  | e :: es => .ofJson e :: elementsOfJson es

def membersOfJson : List (String × Json) → List Member
  | [] => []
  | (k, v) :: ms => .field (.fixed k) false .plain (.ofJson v) :: membersOfJson ms
end

end MachineProvider.Jsonnet
