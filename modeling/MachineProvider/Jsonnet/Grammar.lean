import MachineProvider.Error
import MachineProvider.Jsonnet.Lexeme
/-!
The grammar of programs. Every rule takes the rule for a whole expression, and `expression` ties
the knot, one level for each nesting. Of alternatives the first that fits is taken.
-/
namespace MachineProvider.Jsonnet

open MachineProvider.Jsonnet.Parser (perhaps many separated exactly)

section
variable (e : Parser Expr)

/-! ### Functions -/

def param : Parser Param := do
  let name ← identifier
  return (name, ← perhaps (spaced "=" *> e))

/-- Whether no parameter without a default follows one with a default. -/
def defaultsLast (ps : List Param) : Bool := (ps.dropWhile (·.2.isNone)).all (·.2.isSome)

def params : Parser (List Param) := do
  let ps ← separated (param e) comma
  let _ ← perhaps comma
  if defaultsLast ps then return ps else Parser.aborted

/-- Parameters between parentheses. -/
def signature : Parser (List Param) := sign "(" *> params e <* spaced ")"

def argument : Parser (Option String × Expr) :=
  (do
    let name ← identifier
    spaced "="
    return (some name, ← e)) <|>
  (none, ·) <$> e

/-- Arguments by position, then those by name. -/
def arguments : Parser (List Expr × List (String × Expr)) := do
  let args ← separated (argument e) comma
  let _ ← perhaps comma
  let named := args.dropWhile (·.1.isNone)
  if named.all (·.1.isSome) then
    return (args.takeWhile (·.1.isNone) |>.map (·.2), named.filterMap fun (n, v) => n.map (·, v))
  else Parser.absent

def bind : Parser Bind := do
  let name ← identifier
  blanks
  (do
    sign "="
    return (name, ← e)) <|>
  (do
    let ps ← signature e
    spaced "="
    return (name, .function ps (← e)))

/-! ### Objects -/

def assertion : Parser (Expr × Option Expr) := do
  keyword "assert"
  blanks
  let condition ← e
  return (condition, ← perhaps (spaced ":" *> e))

def fieldName : Parser FieldName :=
  (.fixed <$> identifier) <|> (.fixed <$> text) <|>
  (.computed <$> (sign "[" *> e <* blanks <* exactly "]"))

def visibility : Parser Visibility :=
  (exactly ":::" *> pure .shown) <|> (exactly "::" *> pure .hidden) <|> (exactly ":" *> pure .plain)

def plus : Parser Bool := (fun sign => sign.isSome) <$> perhaps (exactly "+")

def field : Parser Member :=
  (do
    let name ← fieldName e
    blanks
    let adds ← plus
    blanks
    let shows ← visibility
    blanks
    return .field name adds shows (← e)) <|>
  (do
    let name ← fieldName e
    blanks
    let ps ← signature e
    blanks
    let _ ← visibility
    blanks
    return .field name false .hidden (.function ps (← e)))

def objectBind : Parser Bind := keyword "local" *> blanks *> bind e

def member : Parser Member :=
  ((fun (name, value) => .bind name value) <$> objectBind e) <|>
  ((fun (condition, message) => .assertion condition message) <$> assertion e) <|>
  field e

def each : Parser Spec := do
  keyword "for"
  blanks
  let name ← identifier
  blanks
  keyword "in"
  blanks
  return .each name (← e)

def condition : Parser Expr := keyword "if" *> blanks *> e

def specs : Parser (List Spec) := do
  let first ← each e
  let others ← perhaps (blanks *> separated ((.filter <$> condition e) <|> each e) blanks)
  return first :: others.getD []

def objectComprehension : Parser Body := do
  let before ← many (objectBind e <* comma)
  sign "["
  let key ← e
  spaced "]"
  let adds ← plus
  spaced ":"
  let value ← e
  let behind ← many (comma *> objectBind e)
  blanks
  let _ ← perhaps (sign ",")
  return .comprehension (before ++ behind) key adds value (← specs e)

def objectMembers : Parser Body := do
  let ms ← separated (member e) comma
  let _ ← perhaps comma
  return .members ms

/-- An object between its braces. -/
def body : Parser Body :=
  sign "\x7b" *> (objectComprehension e <|> objectMembers e) <* blanks <* exactly "\x7d"

/-! ### Atoms -/

/-- Elements behind the first one, or behind none. -/
def arrayRest (first : Option Expr) : Parser Expr := do
  let others ← match first with
    | some _ => many (comma *> e)
    | none => pure []
  blanks
  let _ ← perhaps comma
  exactly "]"
  return .array (first.toList ++ others)

def comprehensionRest (element : Expr) : Parser Expr := do
  blanks
  let _ ← perhaps comma
  blanks
  let parts ← specs e
  blanks
  exactly "]"
  return .comprehension element parts

def array : Parser Expr := do
  sign "["
  match ← perhaps e with
  | some first => arrayRest e (some first) <|> comprehensionRest e first
  | none => arrayRest e none

def literal : Parser Expr :=
  (keyword "null" *> pure .null) <|> (keyword "true" *> pure (.bool true)) <|>
  (keyword "false" *> pure (.bool false)) <|> (keyword "self" *> pure .self) <|>
  (keyword "$" *> pure .root) <|> (keyword "super" *> pure .base)

def file : Parser Expr :=
  (keyword "importstr" <|> keyword "import") *> blanks *> text *> pure .file

def locals : Parser Expr := do
  keyword "local"
  blanks
  let binds ← separated (bind e) comma
  let _ ← perhaps (blanks *> exactly ",")
  spaced ";"
  return .locals binds (← e)

def conditional : Parser Expr := do
  let c ← condition e
  blanks
  keyword "then"
  blanks
  let yes ← e
  return .conditional c yes (← perhaps (blanks *> keyword "else" *> blanks *> e))

def function : Parser Expr := do
  keyword "function"
  blanks
  let ps ← signature e
  blanks
  return .function ps (← e)

def asserting : Parser Expr := do
  let (condition, message) ← assertion e
  spaced ";"
  return .assertion condition message (← e)

def atom : Parser Expr :=
  literal <|> (.text <$> text) <|> (.number <$> number) <|> array e <|> (.object <$> body e) <|>
  file <|> (.var <$> identifier) <|> locals e <|> conditional e <|> function e <|> asserting e <|>
  (.error <$> (keyword "error" *> blanks *> e)) <|> (sign "(" *> e <* blanks <* exactly ")")

/-! ### Operators -/

/-- What stands between brackets behind a value: a key, or a slice. -/
def subscript : Parser (Expr → Expr) := do
  sign "["
  let start ← perhaps e
  blanks
  (do
    let part : Parser (Option Expr) := perhaps (blanks *> e <* blanks)
    exactly ":"
    let stop ← part
    let step ← perhaps (exactly ":" *> part)
    blanks
    exactly "]"
    return fun value => .slice value start stop (step.getD none)) <|>
  (match start with
    | some key => exactly "]" *> pure fun value => .index value key
    | none => Parser.absent)

/-- The arguments of a call; a mark behind them makes it strict. -/
def applied : Parser (Expr → Expr) := do
  sign "("
  let (positional, named) ← arguments e
  blanks
  exactly ")"
  let strict ← perhaps (blanks *> keyword "tailstrict")
  return fun f => .apply f positional named strict.isSome

def postfixed : Parser Expr := do
  let value ← atom e
  let steps ← many (blanks *> (subscript e <|>
    (do
      sign "."
      let name ← identifier
      return fun value => .index value (.text name)) <|>
    applied e <|> ((fun b value => .extend value b) <$> body e)))
  return steps.foldl (fun value step => step value) value

def unaryOp : Parser UnaryOp :=
  (exactly "-" *> pure .minus) <|> (exactly "!" *> pure .not) <|> (exactly "~" *> pure .complement)

def unary : Parser Expr := do
  let ops ← many (unaryOp <* blanks)
  let operand ← postfixed e
  return ops.foldr .unary operand

end

/-- Operators of one strength, which group to the left or to the right. -/
structure Precedence where
  operators : List (Parser Unit × BinaryOp)
  toRight : Bool := false

/-- From the weakest to the strongest. -/
def precedences : List Precedence :=
  [⟨[(exactly "||", .or)], false⟩,
   ⟨[(exactly "&&", .and)], false⟩,
   ⟨[(exactly "|", .bitOr)], false⟩,
   ⟨[(exactly "^", .bitXor)], true⟩,
   ⟨[(exactly "&", .bitAnd)], false⟩,
   ⟨[(exactly "==", .equal), (exactly "!=", .different)], false⟩,
   ⟨[(exactly "<", .less), (exactly ">", .greater), (exactly "<=", .atMost),
     (exactly ">=", .atLeast), (keyword "in", .isField)], false⟩,
   ⟨[(exactly "<<", .shiftLeft), (exactly ">>", .shiftRight)], false⟩,
   ⟨[(exactly "+", .add), (exactly "-", .subtract)], false⟩,
   ⟨[(exactly "*", .multiply), (exactly "/", .divide), (exactly "%", .modulo)], false⟩]

/-- An operator and its right operand. -/
def operation (operand : Parser Expr) : List (Parser Unit × BinaryOp) → Parser (BinaryOp × Expr)
  | [] => Parser.absent
  | (sign, op) :: rest =>
    (do
      blanks
      sign
      blanks
      return (op, ← operand)) <|> operation operand rest

def groupRight (first : Expr) : List (BinaryOp × Expr) → Expr
  | [] => first
  | (op, next) :: rest => .binary first op (groupRight next rest)

def binary (operand : Parser Expr) : List Precedence → Parser Expr
  | [] => operand
  | level :: stronger => do
    let first ← binary operand stronger
    let rest ← many (operation (binary operand stronger) level.operators)
    return if level.toRight then groupRight first rest
      else rest.foldl (fun left (op, right) => .binary left op right) first

/-- An expression that nests at most so deep. -/
def expression : Nat → Parser Expr
  | 0 => Parser.absent
  | depth + 1 => binary (unary (expression depth)) precedences

/-- The program of a text: an expression, with blanks around it. -/
def program (source : String) : Except RenderError Expr :=
  let cs := source.toList
  if cs.isEmpty then .error .aborted
  else
    match (blanks *> expression (cs.length + 1) <* blanks : Parser Expr) cs with
    | .found e [] => .ok e
    | .aborted => .error .aborted
    | _ => .error .evaluation

end MachineProvider.Jsonnet
