import MachineProvider.Json.Basic
/-! Compact JSON text: no blanks, members in the order given, controls escaped. -/
namespace MachineProvider.Json

/-- The escape after the backslash, for characters that have a short one. -/
def shortEscape? : Char → Option Char
  | '"' => some '"'
  | '\\' => some '\\'
  | '\n' => some 'n'
  | '\r' => some 'r'
  | '\t' => some 't'
  | '\x08' => some 'b'
  | '\x0c' => some 'f'
  | _ => none

/-- Four hexadecimal digits. -/
def hex4 (n : Nat) : List Char :=
  let digits := Nat.toDigits 16 n
  List.replicate (4 - digits.length) '0' ++ digits

def escapeChar (c : Char) : List Char :=
  match shortEscape? c with
  | some e => ['\\', e]
  | none => if c.toNat < 32 then '\\' :: 'u' :: hex4 c.toNat else [c]

/-- A text between quotes. -/
def quote (s : String) : String :=
  s.foldl (fun out c => (escapeChar c).foldl String.push out) "\"" ++ "\""

mutual
def render : Json → String
  | null => "null"
  | bool true => "true"
  | bool false => "false"
  | number n => n.text
  | string s => quote s
  | array [] => "[]"
  | array (e :: es) => "[" ++ render e ++ renderElements es ++ "]"
  | object [] => "\x7b\x7d"
  | object ((k, v) :: ms) => "\x7b" ++ quote k ++ ":" ++ render v ++ renderMembers ms ++ "\x7d"

def renderElements : List Json → String
  | [] => ""
  | e :: es => "," ++ render e ++ renderElements es

def renderMembers : List (String × Json) → String
  | [] => ""
  | (k, v) :: ms => "," ++ quote k ++ ":" ++ render v ++ renderMembers ms
end

end MachineProvider.Json
