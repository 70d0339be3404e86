import MachineProvider.Text.Utf8
/-!
Base64 with the standard alphabet and required padding. Reading names the first fault: a symbol
outside the alphabet, a length no text has, missing padding, or bits left over in the last symbol.
-/
namespace MachineProvider.Text.Base64

inductive Error where
  | symbol (byte : UInt8) (offset : Nat)
  | length (count : Nat)
  | padding
  | lastSymbol (byte : UInt8) (offset : Nat)
deriving DecidableEq

def Error.message : Error → String
  | .symbol b n => s!"Invalid symbol {b.toNat}, offset {n}."
  | .length n => s!"Invalid input length: {n}"
  | .padding => "Invalid padding"
  | .lastSymbol b n => s!"Invalid last symbol {b.toNat}, offset {n}."

/-- The six bits of a symbol. -/
def value? (b : UInt8) : Option Nat :=
  let n := b.toNat
  if 65 ≤ n ∧ n ≤ 90 then some (n - 65)
  else if 97 ≤ n ∧ n ≤ 122 then some (n - 71)
  else if 48 ≤ n ∧ n ≤ 57 then some (n + 4)
  else if n = 43 then some 62
  else if n = 47 then some 63
  else none

def symbol (n : Nat) : Char :=
  if n < 26 then Char.ofNat (n + 65)
  else if n < 52 then Char.ofNat (n + 71)
  else if n < 62 then Char.ofNat (n - 4)
  else if n = 62 then '+'
  else '/'

def encodeChars : Bytes → List Char
  | [] => []
  | [a] => [symbol (a.toNat / 4), symbol (a.toNat % 4 * 16), '=', '=']
  | [a, b] =>
    [symbol (a.toNat / 4), symbol (a.toNat % 4 * 16 + b.toNat / 16), symbol (b.toNat % 16 * 4), '=']
  | a :: b :: c :: rest =>
    symbol (a.toNat / 4) :: symbol (a.toNat % 4 * 16 + b.toNat / 16) ::
      symbol (b.toNat % 16 * 4 + c.toNat / 64) :: symbol (c.toNat % 64) :: encodeChars rest

def encode (bytes : Bytes) : String := String.ofList (encodeChars bytes)

/-- The byte that stands for no bits at the end of a text. -/
def pad : UInt8 := 61

/-- The bits of symbols, or the first byte that is none. -/
def values (offset : Nat) : Bytes → Except Error (List Nat)
  | [] => .ok []
  | b :: rest =>
    match value? b with
    | none => .error (.symbol b offset)
    | some v => (values (offset + 1) rest).map (v :: ·)

/-- Whole bytes out of groups of four symbols. -/
def pack : List Nat → Bytes
  | a :: b :: c :: d :: rest =>
    UInt8.ofNat (a * 4 + b / 16) :: UInt8.ofNat (b * 16 + c / 4) ::
      UInt8.ofNat (c * 64 + d) :: pack rest
  | [a, b, c] => [UInt8.ofNat (a * 4 + b / 16), UInt8.ofNat (b * 16 + c / 4)]
  | [a, b] => [UInt8.ofNat (a * 4 + b / 16)]
  | _ => []

/-- The bits past the last whole byte of a closing group. -/
def leftover : List Nat → Nat
  | [_, b] => b % 16
  | [_, _, c] => c % 4
  | _ => 0

/-- Symbols of the closing group with the padding seen so far; padding ends the symbols. -/
def closing (start : Nat) : (index : Nat) → (symbols : Bytes) → (pads : Nat) → Bytes →
    Except Error (Bytes × Nat)
  | _, symbols, pads, [] => .ok (symbols.reverse, pads)
  | index, symbols, pads, b :: rest =>
    if b = pad then
      if index < 2 then .error (.symbol b (start + index))
      else closing start (index + 1) symbols (pads + 1) rest
    else if 0 < pads then .error (.symbol pad (start + index - pads))
    else
      match value? b with
      | none => .error (.symbol b (start + index))
      | some _ => closing start (index + 1) (b :: symbols) pads rest

def decodeClosing (start : Nat) (group : Bytes) : Except Error Bytes := do
  let (symbols, pads) ← closing start 0 [] 0 group
  if group.isEmpty then .ok []
  else if symbols.length < 2 then .error (.length (start + symbols.length))
  else if (pads + symbols.length) % 4 ≠ 0 then .error .padding
  else
    let vs ← values start symbols
    if leftover vs ≠ 0 then .error (.lastSymbol (symbols.getLastD pad) (start + symbols.length - 1))
    else .ok (pack vs)

def decode (bytes : Bytes) : Except Error Bytes := do
  let stray := bytes.length % 4
  match bytes.getLast? with
  | some last =>
    if stray = 1 ∧ last ≠ pad ∧ (value? last).isNone then
      throw (.symbol last (bytes.length - 1))
  | none => pure ()
  -- the last group is apart even when it is whole, for its padding
  let whole := bytes.length - stray - if stray = 0 then 4 else 0
  let front ← values 0 (bytes.take whole)
  let back ← decodeClosing whole (bytes.drop whole)
  return pack front ++ back

end MachineProvider.Text.Base64
