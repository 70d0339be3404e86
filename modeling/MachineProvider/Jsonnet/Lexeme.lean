import MachineProvider.Jsonnet.Syntax
/-!
The words of a program: blanks and comments, names, numbers, quoted texts and text blocks. A
digit run past 64 bits or an unknown escape aborts the reading, wherever it stands.
-/
namespace MachineProvider.Jsonnet

/-- What is read from the front of a text. -/
inductive Reading (α : Type) where
  | found (value : α) (rest : List Char)
  | absent
  | aborted

/-- Ordered alternatives: the first one found counts. -/
def Parser (α : Type) := List Char → Reading α

namespace Parser

variable {α β : Type}

instance : Monad Parser where
  pure a := fun cs => .found a cs
  bind p f := fun cs =>
    match p cs with
    | .found a rest => f a rest
    | .absent => .absent
    | .aborted => .aborted

def orElse (p : Parser α) (q : Unit → Parser α) : Parser α := fun cs =>
  match p cs with
  | .absent => q () cs
  | reading => reading

instance : OrElse (Parser α) := ⟨orElse⟩

def absent : Parser α := fun _ => .absent

def aborted : Parser α := fun _ => .aborted

def perhaps (p : Parser α) : Parser (Option α) := (some <$> p) <|> pure none

def manyWithin (p : Parser α) : Nat → Parser (List α)
  | 0 => pure []
  | n + 1 => (do return (← p) :: (← manyWithin p n)) <|> pure []

/-- As many as there are; each takes a character at least. -/
def many (p : Parser α) : Parser (List α) :=
  (do
    let first ← p
    fun cs => (do return first :: (← manyWithin p cs.length)) cs) <|> pure []

def separated (p : Parser α) (separator : Parser β) : Parser (List α) :=
  (do return (← p) :: (← many (separator *> p))) <|> pure []

def dropText : List Char → List Char → Option (List Char)
  | [], rest => some rest
  | c :: cs, d :: rest => if c = d then dropText cs rest else none
  | _ :: _, [] => none

def exactly (text : String) : Parser Unit := fun cs =>
  match dropText text.toList cs with
  | some rest => .found () rest
  | none => .absent

end Parser

/-! ### Blanks -/

/-- Where in a comment the reading stands, and where the comment began. -/
inductive Comment where
  | none
  | line (start : List Char)
  | block (start : List Char)

def isBlank (c : Char) : Bool := c == ' ' || c == '\r' || c == '\n' || c == '\t'

/-- The text behind blanks and comments; a comment that does not end is none. -/
def skipBlanks : Comment → List Char → List Char
  | .none, [] => []
  | .none, '/' :: '/' :: rest => skipBlanks (.line ('/' :: '/' :: rest)) rest
  | .none, '/' :: '*' :: rest => skipBlanks (.block ('/' :: '*' :: rest)) rest
  | .none, '#' :: rest => skipBlanks (.line ('#' :: rest)) rest
  | .none, c :: rest => if isBlank c then skipBlanks .none rest else c :: rest
  | .line start, [] => start
  | .line start, c :: rest =>
    if c = '\n' then skipBlanks .none rest else skipBlanks (.line start) rest
  | .block start, [] => start
  | .block start, '\\' :: '*' :: '/' :: rest => skipBlanks (.block start) rest
  | .block start, '\\' :: '\\' :: rest => skipBlanks (.block start) rest
  | .block _, '*' :: '/' :: rest => skipBlanks .none rest
  | .block start, _ :: rest => skipBlanks (.block start) rest

def blanks : Parser Unit := fun cs => .found () (skipBlanks .none cs)

/-- A sign and the blanks behind it. -/
def sign (text : String) : Parser Unit := Parser.exactly text *> blanks

/-- The blanks in front of a sign, the sign and the blanks behind it. -/
def spaced (text : String) : Parser Unit := blanks *> sign text

def comma : Parser Unit := spaced ","

/-! ### Names -/

def isDigit (c : Char) : Bool := '0' ≤ c && c ≤ '9'

def isLetter (c : Char) : Bool := c == '_' || ('a' ≤ c && c ≤ 'z') || ('A' ≤ c && c ≤ 'Z')

def isWordChar (c : Char) : Bool := isLetter c || isDigit c

def reserved : List String :=
  ["assert", "else", "error", "false", "for", "function", "if", "import", "in", "local", "null",
    "tailstrict", "then", "self", "super", "true"]

def identifier : Parser String := fun cs =>
  match cs with
  | [] => .absent
  | c :: _ =>
    let word := String.ofList (cs.takeWhile isWordChar)
    if isLetter c && !reserved.contains word then .found word (cs.dropWhile isWordChar) else .absent

/-- A word that no letter or digit follows. -/
def keyword (word : String) : Parser Unit := do
  Parser.exactly word
  fun rest =>
    match rest with
    | [] => .found () rest
    | c :: _ => if isWordChar c then .absent else .found () rest

/-! ### Numbers -/

def decimal (digits : List Char) : Nat := digits.foldl (fun n c => n * 10 + (c.toNat - 48)) 0

/-- A run of digits that fits 64 bits. -/
def digits : Parser (List Char) := fun cs =>
  match cs.takeWhile isDigit with
  | [] => .absent
  | ds => if decimal ds < 0x10000000000000000 then .found ds (cs.dropWhile isDigit) else .aborted

def exponent : Parser Int := do
  Parser.exactly "e" <|> Parser.exactly "E"
  let negative ←
    (do Parser.exactly "-"; return true) <|> (do Parser.exactly "+"; return false) <|> pure false
  let size := (decimal (← digits) : Int)
  return if negative then -size else size

def number : Parser Double := do
  let whole ← digits
  let fraction := (← Parser.perhaps (Parser.exactly "." *> digits)).getD []
  let power := (← Parser.perhaps exponent).getD 0
  return .ofDecimal (decimal (whole ++ fraction)) (power - fraction.length)

/-! ### Texts -/

def hexDigit? (c : Char) : Option Nat :=
  if '0' ≤ c ∧ c ≤ '9' then some (c.toNat - 48)
  else if 'a' ≤ c ∧ c ≤ 'f' then some (c.toNat - 87)
  else if 'A' ≤ c ∧ c ≤ 'F' then some (c.toNat - 55)
  else none

/-- The number of digits in a base; a plus sign may lead. -/
def radix? (base : Nat) (cs : List Char) : Option Nat :=
  let body := match cs with
    | '+' :: d :: rest => d :: rest
    | cs => cs
  body.foldlM (fun n c => do
    let d ← hexDigit? c
    if d < base then some (n * base + d) else none) 0

def charOf? (n : Nat) : Option Char := if n.isValidChar then some (Char.ofNat n) else none

def shortEscape? : Char → Option Char
  | 'b' => some '\x08'
  | 'f' => some '\x0c'
  | 'n' => some '\n'
  | 'r' => some '\r'
  | 't' => some '\t'
  | '\'' => some '\''
  | '"' => some '"'
  | '\\' => some '\\'
  | _ => none

/-- Escapes replaced by what they stand for; none when one is unknown. -/
def unescape (out : List Char) : List Char → Option (List Char)
  | [] => some out.reverse
  | '\\' :: 'u' :: a :: b :: c :: d :: rest => do
    let n ← radix? 16 [a, b, c, d]
    unescape ((← charOf? n) :: out) rest
  | '\\' :: 'x' :: a :: b :: rest => do
    let n ← radix? 16 [a, b]
    unescape ((← charOf? n) :: out) rest
  | '\\' :: a :: b :: c :: rest =>
    match shortEscape? a with
    | some e => unescape (e :: out) (b :: c :: rest)
    | none =>
      if '0' ≤ a ∧ a ≤ '3' ∧ (radix? 8 [a, b, c]).isSome then do
        unescape ((← charOf? (← radix? 8 [a, b, c])) :: out) rest
      else if '0' ≤ a ∧ a ≤ '7' then do
        unescape ((← charOf? (← radix? 8 [a, b])) :: out) (c :: rest)
      else none
  | '\\' :: a :: rest =>
    match shortEscape? a, rest with
    | some e, rest => unescape (e :: out) rest
    | none, [b] =>
      if '0' ≤ a ∧ a ≤ '7' then do
        some ((← charOf? (← radix? 8 [a, b])) :: out).reverse
      else none
    | none, _ => none
  | ['\\'] => none
  | c :: rest => unescape (c :: out) rest

/-- The text up to a closing quote, escapes kept, and what follows the quote. -/
def upToQuote (quote : Char) (out : List Char) : List Char → Option (List Char × List Char)
  | [] => none
  | '\\' :: c :: rest =>
    if c = quote ∨ c = '\\' then upToQuote quote (c :: '\\' :: out) rest
    else upToQuote quote ('\\' :: out) (c :: rest)
  | c :: rest => if c = quote then some (out.reverse, rest) else upToQuote quote (c :: out) rest

/-- The text up to a closing quote, where two quotes stand for one. -/
def upToLoneQuote (quote : Char) (out : List Char) : List Char → Option (List Char × List Char)
  | [] => none
  | c :: rest =>
    if c = quote then
      match rest with
      | d :: rest =>
        if d = quote then upToLoneQuote quote (quote :: out) rest
        else some (out.reverse, d :: rest)
      | [] => some (out.reverse, [])
    else upToLoneQuote quote (c :: out) rest

def isIndent (c : Char) : Bool := c == ' ' || c == '\t'

/-- A line with its break, and what follows. -/
def wholeLine? (cs : List Char) : Option (List Char × List Char) :=
  match cs.dropWhile (· ≠ '\n') with
  | [] => none
  | _ :: rest => some (cs.takeWhile (· ≠ '\n') ++ ['\n'], rest)

/-- The lines that are empty or indented at least so far, without that indentation. -/
def blockLines (width : Nat) : (fuel : Nat) → List Char → List Char × List Char
  | 0, cs => ([], cs)
  | fuel + 1, cs =>
    let line :=
      if cs.head? == some '\n' then some (['\n'], cs.tail)
      else if width ≤ (cs.takeWhile isIndent).length then wholeLine? (cs.drop width)
      else none
    match line with
    | none => ([], cs)
    | some (line, rest) =>
      let (more, rest) := blockLines width fuel rest
      (line ++ more, rest)

/-- A text block from behind its opening bars. -/
def block? (cs : List Char) : Option (List Char × List Char) := do
  match cs.dropWhile fun c => isBlank c && c != '\n' with
  | '\n' :: cs =>
    let indented := cs.dropWhile (· = '\n')
    let width := (indented.takeWhile isIndent).length
    if width = 0 then none
    else
      let (first, rest) ← wholeLine? (indented.drop width)
      let (more, rest) := blockLines width rest.length rest
      let closing := (rest.takeWhile isIndent).length
      let rest ← Parser.dropText ['|', '|', '|'] (rest.drop (min closing (width - 1)))
      some (cs.takeWhile (· = '\n') ++ first ++ more, rest)
  | _ => none

def verbatim (reading : Option (List Char × List Char)) : Reading String :=
  match reading with
  | some (body, rest) => .found (String.ofList body) rest
  | none => .absent

def escaped (reading : Option (List Char × List Char)) : Reading String :=
  match reading with
  | some (body, rest) =>
    match unescape [] body with
    | some text => .found (String.ofList text) rest
    | none => .aborted
  | none => .absent

def text : Parser String
  | '"' :: rest => escaped (upToQuote '"' [] rest)
  | '\'' :: rest => escaped (upToQuote '\'' [] rest)
  | '@' :: '\'' :: rest => verbatim (upToLoneQuote '\'' [] rest)
  | '@' :: '"' :: rest => verbatim (upToLoneQuote '"' [] rest)
  | '|' :: '|' :: '|' :: rest => verbatim (block? rest)
  | _ => .absent

end MachineProvider.Jsonnet
