import MachineProvider.Jsonnet.Interpreter
import MachineProvider.Jsonnet.Lexeme
/-!
Texts with directives, each of which a value replaces: `%`, a key in parentheses, flags, a width,
a precision and the letter of a conversion.
-/
namespace MachineProvider.Jsonnet.Format

inductive Conversion where
  | integer
  | octal
  | hexadecimal
  | scientific
  | positional
  | shorter
  | character
  | text
  | percent
deriving DecidableEq

/-- A width or a precision, written out or taken from the values. -/
inductive Size where
  | fixed (n : Nat)
  | given

structure Flags where
  alternate : Bool := false
  zero : Bool := false
  left : Bool := false
  blank : Bool := false
  sign : Bool := false

structure Directive where
  key : String
  flags : Flags
  width : Size
  precision : Option Size
  conversion : Conversion
  upper : Bool

inductive Piece where
  | literal (text : String)
  | directive (d : Directive)

/-! ### Reading -/

def key? : List Char → Option (String × List Char)
  | '(' :: rest =>
    match rest.dropWhile (· ≠ ')') with
    | [] => none
    | _ :: behind => some (String.ofList (rest.takeWhile (· ≠ ')')), behind)
  | cs => some ("", cs)

def flags (f : Flags) : List Char → Flags × List Char
  | '#' :: rest => flags { f with alternate := true } rest
  | '0' :: rest => flags { f with zero := true } rest
  | '-' :: rest => flags { f with left := true } rest
  | ' ' :: rest => flags { f with blank := true } rest
  | '+' :: rest => flags { f with sign := true } rest
  | cs => (f, cs)

def size : List Char → Size × List Char
  | '*' :: rest => (.given, rest)
  | cs => (.fixed (decimal (cs.takeWhile isDigit)), cs.dropWhile isDigit)

def precision : List Char → Option Size × List Char
  | '.' :: rest =>
    let (n, rest) := size rest
    (some n, rest)
  | cs => (none, cs)

/-- A letter's conversion, and whether its digits are capitals. -/
def conversion? (c : Char) : Option (Conversion × Bool) :=
  match c with
  | 'd' | 'i' | 'u' => some (.integer, false)
  | 'o' => some (.octal, false)
  | 'x' => some (.hexadecimal, false)
  | 'X' => some (.hexadecimal, true)
  | 'e' => some (.scientific, false)
  | 'E' => some (.scientific, true)
  | 'f' => some (.positional, false)
  | 'F' => some (.positional, true)
  | 'g' => some (.shorter, false)
  | 'G' => some (.shorter, true)
  | 'c' => some (.character, false)
  | 's' => some (.text, false)
  | '%' => some (.percent, false)
  | _ => none

/-- A directive from behind its percent sign; a length modifier says nothing. -/
def directive? (cs : List Char) : Option (Directive × List Char) := do
  let (key, cs) ← key? cs
  let (flags, cs) := flags {} cs
  let (width, cs) := size cs
  let (precision, cs) := precision cs
  match cs.dropWhile fun c => c == 'h' || c == 'l' || c == 'L' with
  | [] => none
  | c :: rest =>
    let (conversion, upper) ← conversion? c
    return ({ key, flags, width, precision, conversion, upper }, rest)

def piecesWithin : Nat → List Char → Option (List Piece)
  | 0, _ => none
  | fuel + 1, cs =>
    let front := .literal (String.ofList (cs.takeWhile (· ≠ '%')))
    match cs.dropWhile (· ≠ '%') with
    | [] => some [front]
    | _ :: rest => do
      let (d, rest) ← directive? rest
      return front :: .directive d :: (← piecesWithin fuel rest)

def pieces? (text : String) : Option (List Piece) := piecesWithin (text.length + 1) text.toList

/-! ### Numbers -/

def capitals (upper : Bool) (text : String) : String :=
  if upper then text.map Char.toUpper else text

def zeros (n : Nat) : String := String.ofList (List.replicate n '0')

/-- Digits in a base behind a sign, zeros and the base's mark. -/
def integer (n : Int) (padding precision : Nat) (blank sign : Bool) (base : Nat := 10)
    (mark : String := "") (upper : Bool := false) : String :=
  let digits := String.ofList (Nat.toDigits base n.natAbs)
  let front := if n < 0 then "-" else if sign then "+" else if blank then " " else ""
  let room := max (padding - front.length) precision
  front ++ zeros (room - (mark.length + digits.length)) ++ mark ++ capitals upper digits

/-- The integer that a number is cut to. -/
def cut (x : Float) : Int := x.toInt64.toInt

def fraction (x : Float) : Float := if x < 0 then x - x.ceil else x - x.floor

/-- How a point and the zeros behind it are kept. -/
structure Point where
  always : Bool
  trailing : Bool

/-- Digits before the point and so many behind it. -/
def positional (x : Float) (padding precision : Nat) (blank sign : Bool) (point : Point) : String :=
  let dot := if precision = 0 ∧ !point.always then 0 else 1
  let whole := integer (cut x.floor) (padding - (dot + precision)) 0 blank sign
  let bare := if point.always then whole ++ "." else whole
  if precision = 0 then bare
  else
    let rest := (fraction x * Float.pow 10 precision.toFloat + 0.5).floor
    if point.trailing || 0 < rest then
      let digits := (integer (cut rest) precision 0 false false).toList
      let kept := if point.trailing then digits else (digits.reverse.dropWhile (· = '0')).reverse
      whole ++ "." ++ String.ofList kept
    else bare

/-- One digit before the point, and an exponent. -/
def scientific (x : Float) (padding precision : Nat) (blank sign : Bool) (point : Point)
    (upper : Bool) : String :=
  let exponent := x.log10.floor
  let mantissa :=
    if exponent == -324 then x * 10 / Float.pow 10 (exponent + 1) else x / Float.pow 10 exponent
  let power := integer (cut exponent) 3 0 false true
  positional mantissa (padding - (power.length + 1)) precision blank sign point ++
    (if upper then "E" else "e") ++ power

/-- The shorter of both: with an exponent when it is small or exceeds the precision. -/
def shorter (x : Float) (padding precision : Nat) (f : Flags) (upper : Bool) : String :=
  let exponent := x.log10.floor
  let point : Point := ⟨f.alternate, f.alternate⟩
  if exponent < -4 || precision.toFloat ≤ exponent then
    scientific x padding (precision - 1) f.blank f.sign point upper
  else
    let before := max 1 (exponent.toUInt64.toNat + 1)
    positional x padding (precision - before) f.blank f.sign point

def number (d : Directive) (precision : Option Nat) (padding : Nat) (x : Float) : String :=
  let f := d.flags
  let places := precision.getD 6
  let least := precision.getD 0
  match d.conversion with
  | .octal =>
    let mark := if f.alternate && cut x != 0 then "0" else ""
    integer (cut x) padding least f.blank f.sign 8 mark
  | .hexadecimal =>
    let mark := if f.alternate then (if d.upper then "0X" else "0x") else ""
    integer (cut x) padding least f.blank f.sign 16 mark d.upper
  | .scientific => scientific x padding places f.blank f.sign ⟨f.alternate, true⟩ d.upper
  | .positional => positional x padding places f.blank f.sign ⟨f.alternate, true⟩
  | .shorter => shorter x padding places f d.upper
  | _ => integer (cut x) padding least f.blank f.sign

/-! ### Values in place of directives -/

open Eval

section
variable (i : Interpreter)

def character : Value → Eval String
  | .number d => do
    let c ← require (charOf? d.toFloat.toUInt32.toNat)
    return String.singleton c
  | .text s => if s.length = 1 then return s else fail
  | _ => fail

/-- A value as a directive asks for it, without its width. -/
def converted (d : Directive) (width : Nat) (precision : Option Nat) (v : Value) : Eval String :=
  match d.conversion, v with
  | .percent, _ => return "%"
  | .text, v => i.textOf v
  | .character, v => character v
  | _, .number x =>
    return number d precision (if d.flags.zero && !d.flags.left then width else 0) x.toFloat
  | _, _ => fail

/-- Blanks fill the width, which counts bytes. -/
def filled (d : Directive) (width : Nat) (precision : Option Nat) (v : Value) : Eval String := do
  let text ← converted i d width precision v
  let room := String.ofList (List.replicate (width - text.utf8ByteSize) ' ')
  return if d.flags.left then text ++ room else room ++ text

/-- A size, and the values left when it was taken from them. -/
def takeSize : Size → List Value → Eval (Nat × List Value)
  | .fixed n, vs => return (n, vs)
  | .given, .number d :: vs => return (d.toFloat.toUInt64.toNat, vs)
  | .given, _ => fail

def takePrecision : Option Size → List Value → Eval (Option Nat × List Value)
  | none, vs => return (none, vs)
  | some s, vs => do
    let (n, vs) ← takeSize s vs
    return (some n, vs)

/-- Each directive takes the next value; none may be left over. -/
def fill : List Piece → List Value → Eval String
  | [], [] => return ""
  | [], _ :: _ => fail
  | .literal s :: ps, vs => return s ++ (← fill ps vs)
  | .directive d :: ps, vs => do
    let (width, vs) ← takeSize d.width vs
    let (precision, vs) ← takePrecision d.precision vs
    match d.conversion, vs with
    | .percent, vs => return (← filled i d width precision .null) ++ (← fill ps vs)
    | _, v :: vs => return (← filled i d width precision v) ++ (← fill ps vs)
    | _, [] => fail

def fixedSize : Size → Eval Nat
  | .fixed n => return n
  | .given => fail

/-- Each directive takes the field of its key. -/
def fillFrom (o : ObjectId) : List Piece → Eval String
  | [] => return ""
  | .literal s :: ps => return s ++ (← fillFrom o ps)
  | .directive d :: ps => do
    let width ← fixedSize d.width
    let precision ← d.precision.mapM fixedSize
    let v ← if d.conversion = .percent then pure .null
      else if d.key = "" then fail
      else i.field o d.key
    return (← filled i d width precision v) ++ (← fillFrom o ps)

end

end Format

/-- A text with its directives replaced by an array's values, an object's fields or one value. -/
def Interpreter.format (i : Interpreter) (text : String) (v : Value) : Eval String := do
  let pieces ← Eval.require (Format.pieces? text)
  match v with
  | .array ids => Format.fill i pieces (← i.forceAll ids)
  | .object o => Format.fillFrom i o pieces
  | v => Format.fill i pieces [v]

end MachineProvider.Jsonnet
