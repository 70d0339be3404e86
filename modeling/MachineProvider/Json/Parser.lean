import MachineProvider.Decimal.Nearest
import MachineProvider.Json.Basic
/-!
Reading JSON text. Members stay in the order written, repeated keys included; arrays and objects
nest at most 127 deep. A number with a point or an exponent is read from its leading digits that
fit 64 bits, scaled by one power of ten.
-/
namespace MachineProvider.Json.Parser

def isBlank (c : Char) : Bool := c == ' ' || c == '\n' || c == '\t' || c == '\r'

def skipBlanks (cs : List Char) : List Char := cs.dropWhile isBlank

/-- The value of a hexadecimal digit. -/
def hexDigit? (c : Char) : Option Nat :=
  if '0' ≤ c ∧ c ≤ '9' then some (c.toNat - 48)
  else if 'a' ≤ c ∧ c ≤ 'f' then some (c.toNat - 87)
  else if 'A' ≤ c ∧ c ≤ 'F' then some (c.toNat - 55)
  else none

/-- The code unit of four hexadecimal digits. -/
def unit? (a b c d : Char) : Option Nat := do
  return ((← hexDigit? a) * 16 + (← hexDigit? b)) * 256 + ((← hexDigit? c) * 16 + (← hexDigit? d))

def isHighUnit (n : Nat) : Bool := 0xd800 ≤ n && n < 0xdc00

def isLowUnit (n : Nat) : Bool := 0xdc00 ≤ n && n < 0xe000

/-- The character of a pair of units. -/
def ofPair (high low : Nat) : Char :=
  Char.ofNat (0x10000 + (high - 0xd800) * 1024 + (low - 0xdc00))

def escape? : Char → Option Char
  | '"' => some '"'
  | '\\' => some '\\'
  | '/' => some '/'
  | 'b' => some '\x08'
  | 'f' => some '\x0c'
  | 'n' => some '\n'
  | 'r' => some '\r'
  | 't' => some '\t'
  | _ => none

/-- The text up to the closing quote, and what follows it. -/
def stringBody (out : String) : List Char → Option (String × List Char)
  | '"' :: rest => some (out, rest)
  | '\\' :: 'u' :: a :: b :: c :: d :: rest =>
    match unit? a b c d with
    | none => none
    | some n =>
      if isLowUnit n then none
      else if isHighUnit n then
        match rest with
        | '\\' :: 'u' :: e :: f :: g :: h :: rest =>
          match unit? e f g h with
          | some m => if isLowUnit m then stringBody (out.push (ofPair n m)) rest else none
          | none => none
        | _ => none
      else stringBody (out.push (Char.ofNat n)) rest
  | '\\' :: c :: rest =>
    match escape? c with
    | some e => stringBody (out.push e) rest
    | none => none
  | c :: rest => if c.toNat < 32 then none else stringBody (out.push c) rest
  | [] => none

/-- Digits taken while the significand fits 64 bits, and those left over. -/
def absorb (significand : Nat) : List Nat → Nat × List Nat
  | [] => (significand, [])
  | d :: ds =>
    if significand * 10 + d < 0x10000000000000000 then absorb (significand * 10 + d) ds
    else (significand, d :: ds)

/-- A significand scaled by a power of ten, dividing for negative powers; none when it overflows. -/
def scaled? (significand : Nat) (exponent : Int) : Option Double :=
  let d := Double.ofNat significand
  let power (n : Int) : Double := .ofDecimal 1 n
  if 0 ≤ exponent then
    if exponent ≤ 308 then
      let r := d.times (power exponent)
      if r.isFinite then some r else none
    else if significand = 0 then some d else none
  else if -308 ≤ exponent then some (d.dividedBy (power (-exponent)))
  else if -616 ≤ exponent then some ((d.dividedBy (power 308)).dividedBy (power (-exponent - 308)))
  else some .zero

def isDigit (c : Char) : Bool := '0' ≤ c && c ≤ '9'

def digitsOf (cs : List Char) : List Nat := cs.map fun c => c.toNat - 48

def natOf (ds : List Nat) : Nat := ds.foldl (fun n d => n * 10 + d) 0

def signed (negative : Bool) (d : Double) : Number := .double (if negative then d.negate else d)

/-- The number of an integer part, a fraction and an exponent. -/
def number? (negative : Bool) (whole fraction : List Nat) (exponent : Option (Bool × List Nat))
    (isInteger : Bool) : Option Number :=
  let (significand, beyond) := absorb 0 whole
  if isInteger && beyond.isEmpty then
    if !negative then some (.integer significand)
    else if significand = 0 ∨ 0x8000000000000000 < significand then
      some (signed true (.ofNat significand))
    else some (.integer (-(significand : Int)))
  else
    let (significand, dropped) := absorb significand fraction
    let start : Int := (beyond.length : Int) - (fraction.length - dropped.length)
    match exponent with
    | none => (scaled? significand start).map (signed negative)
    | some (down, ds) =>
      let e := natOf ds
      if e < 0x80000000 then
        (scaled? significand (if down then start - e else start + e)).map (signed negative)
      else if significand ≠ 0 && !down then none
      else some (signed negative .zero)

/-- The digits in front and the text behind them; none without a digit. -/
def digits? (cs : List Char) : Option (List Nat × List Char) :=
  match cs.takeWhile isDigit with
  | [] => none
  | ds => some (digitsOf ds, cs.dropWhile isDigit)

def exponent? (cs : List Char) : Option (Bool × List Nat × List Char) :=
  match cs with
  | '+' :: rest => (digits? rest).map (false, ·)
  | '-' :: rest => (digits? rest).map (true, ·)
  | _ => (digits? cs).map (false, ·)

/-- A number without its sign. -/
def unsigned? (negative : Bool) (cs : List Char) : Option (Number × List Char) := do
  let (whole, rest) ← digits? cs
  if whole.head? == some 0 && 1 < whole.length then none
  else
    let (fraction, pointed, rest) ← match rest with
      | '.' :: rest => do
        let (ds, rest) ← digits? rest
        some (ds, true, rest)
      | _ => some ([], false, rest)
    let readExponent (rest : List Char) : Option (Number × List Char) := do
      let (down, ds, rest) ← exponent? rest
      let n ← number? negative whole fraction (some (down, ds)) false
      some (n, rest)
    match rest with
    | 'e' :: rest => readExponent rest
    | 'E' :: rest => readExponent rest
    | _ => do
      let n ← number? negative whole fraction none (!pointed)
      some (n, rest)

mutual
/-- One value from the front of the text, with the nesting still allowed. -/
def value (fuel depth : Nat) (cs : List Char) : Option (Json × List Char) :=
  match fuel with
  | 0 => none
  | fuel + 1 =>
    match skipBlanks cs with
    | 'n' :: 'u' :: 'l' :: 'l' :: rest => some (.null, rest)
    | 't' :: 'r' :: 'u' :: 'e' :: rest => some (.bool true, rest)
    | 'f' :: 'a' :: 'l' :: 's' :: 'e' :: rest => some (.bool false, rest)
    | '"' :: rest => (stringBody "" rest).map fun (s, rest) => (.string s, rest)
    | '-' :: rest => (unsigned? true rest).map fun (n, rest) => (.number n, rest)
    | '[' :: rest =>
      match depth with
      | 0 => none
      | depth + 1 =>
        match skipBlanks rest with
        | ']' :: rest => some (.array [], rest)
        | rest => elements fuel depth rest []
    | '\x7b' :: rest =>
      match depth with
      | 0 => none
      | depth + 1 =>
        match skipBlanks rest with
        | '\x7d' :: rest => some (.object [], rest)
        | rest => members fuel depth rest []
    | rest => (unsigned? false rest).map fun (n, rest) => (.number n, rest)

/-- The elements up to the closing bracket, those before them reversed in `acc`. -/
def elements (fuel depth : Nat) (cs : List Char) (acc : List Json) : Option (Json × List Char) :=
  match fuel with
  | 0 => none
  | fuel + 1 =>
    match value fuel depth cs with
    | none => none
    | some (v, rest) =>
      match skipBlanks rest with
      | ',' :: rest => elements fuel depth rest (v :: acc)
      | ']' :: rest => some (.array (v :: acc).reverse, rest)
      | _ => none

/-- The members up to the closing brace, those before them reversed in `acc`. -/
def members (fuel depth : Nat) (cs : List Char) (acc : List (String × Json)) :
    Option (Json × List Char) :=
  match fuel with
  | 0 => none
  | fuel + 1 =>
    match skipBlanks cs with
    | '"' :: rest =>
      match stringBody "" rest with
      | none => none
      | some (key, rest) =>
        match skipBlanks rest with
        | ':' :: rest =>
          match value fuel depth rest with
          | none => none
          | some (v, rest) =>
            match skipBlanks rest with
            | ',' :: rest => members fuel depth rest ((key, v) :: acc)
            | '\x7d' :: rest => some (.object ((key, v) :: acc).reverse, rest)
            | _ => none
        | _ => none
    | _ => none
end

/-- How deep arrays and objects may nest. -/
def maxDepth : Nat := 127

end Parser

/-- The document of a text, members as written. -/
def parseWritten? (text : String) : Option Json :=
  let cs := text.toList
  match Parser.value (2 * cs.length + 2) Parser.maxDepth cs with
  | some (v, rest) => if (Parser.skipBlanks rest).isEmpty then some v else none
  | none => none

/-- The document of a text in canonical form. -/
def parse? (text : String) : Option Json := (parseWritten? text).map canonical

end MachineProvider.Json
