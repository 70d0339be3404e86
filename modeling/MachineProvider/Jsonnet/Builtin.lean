import MachineProvider.Json.Parser
import MachineProvider.Jsonnet.Format
import MachineProvider.Text.Base64
import MachineProvider.Text.Md5
/-!
What the builtin functions give for values.
-/
namespace MachineProvider.Jsonnet

namespace Interpreter

open Eval

def typeName : Value → String
  | .null => "null"
  | .bool _ => "boolean"
  | .number _ => "number"
  | .text _ => "string"
  | .array _ => "array"
  | .object _ => "object"
  | .function _ => "function"

/-- A count written as a number, cut to an integer; negative ones are none. -/
def countOf (d : Double) : Nat := d.toFloat.toUInt64.toNat

def natural (n : Nat) : Value := .number (.ofNat n)

/-! ### Texts -/

/-- A text cut at every separator, at most so often. -/
def cutAt (separator : Char) (limit : Option Nat) (word : List Char) : List Char → List String
  | [] => [String.ofList word.reverse]
  | c :: rest =>
    if c = separator ∧ limit ≠ some 0 then
      String.ofList word.reverse :: cutAt separator (limit.map (· - 1)) [] rest
    else cutAt separator limit (c :: word) rest

/-- Each occurrence of a text replaced, from the left, those found not searched again. -/
def replaceWithin (pattern replacement : List Char) : Nat → List Char → List Char
  | 0, cs => cs
  | fuel + 1, cs =>
    match Parser.dropText pattern cs, cs with
    | some rest, _ => replacement ++ replaceWithin pattern replacement fuel rest
    | none, [] => []
    | none, c :: rest => c :: replaceWithin pattern replacement fuel rest

def replace (text pattern replacement : String) : String :=
  String.ofList (replaceWithin pattern.toList replacement.toList (text.length + 1) text.toList)

/-- Whether a text that is not empty occurs in another. -/
def occurs (pattern : List Char) : List Char → Bool
  | [] => false
  | c :: rest => !pattern.isEmpty && (pattern.isPrefixOf (c :: rest) || occurs pattern rest)

def lowered (c : Char) : Char := if 'A' ≤ c ∧ c ≤ 'Z' then Char.ofNat (c.toNat + 32) else c

def raised (c : Char) : Char := if 'a' ≤ c ∧ c ≤ 'z' then Char.ofNat (c.toNat - 32) else c

/-! ### Arrays -/

def allTexts : List Value → Eval (List String)
  | [] => return []
  | .text s :: vs => return s :: (← allTexts vs)
  | _ => fail

def allNumbers : List Value → Eval (List Double)
  | [] => return []
  | .number d :: vs => return d :: (← allNumbers vs)
  | _ => fail

def allArrays : List Value → Eval (List (List PlaceId))
  | [] => return []
  | .array ids :: vs => return ids :: (← allArrays vs)
  | _ => fail

/-- Values in the order of their keys, which are all texts or all numbers; equal keys stay put. -/
def sortedBy (keyed : List (Value × Value)) : Eval (List Value) := do
  let keys : List Value := keyed.map (·.1)
  let values : List Value := keyed.map (·.2)
  match keys.head? with
  | some (.text _) =>
    let texts := (← allTexts keys).zip values
    return (texts.mergeSort fun a b => a.1 ≤ b.1).map (·.2)
  | some (.number _) =>
    let numbers := (← allNumbers keys).zip values
    return (numbers.mergeSort fun a b => a.1.toFloat ≤ b.1.toFloat).map (·.2)
  | some _ => fail
  | none => return []

section
variable (i : Interpreter) (caller : Scope)

def call (f : Function) (vs : List Value) : Eval Value := i.callValues caller f vs

def keep (f : Function) : List Value → Eval (List Value)
  | [] => return []
  | v :: vs => do
    match ← i.call caller f [v] with
    | .bool true => return v :: (← keep f vs)
    | .bool false => keep f vs
    | _ => fail

/-- How many elements equal a value. -/
def occurrences (v : Value) : List PlaceId → Eval Nat
  | [] => return 0
  | id :: ids => do
    let hit ← i.equal (← i.force id) v
    return (if hit then 1 else 0) + (← occurrences v ids)

def holds (v : Value) : List PlaceId → Eval Bool
  | [] => return false
  | id :: ids => do if ← i.equal (← i.force id) v then return true else holds v ids

/-- Keys of the values to sort; the identity is not called. -/
def keyed (f : Function) (vs : List Value) : Eval (List (Value × Value)) :=
  match f with
  | .builtin .id => return vs.map fun v => (v, v)
  | f => vs.mapM fun v => do return (← i.call caller f [v], v)

def joinTexts (separator : String) (ids : List PlaceId) : Eval Value := do
  return .text (String.intercalate separator (← allTexts (← i.forceAll ids)))

def joinArrays (separator ids : List PlaceId) : Eval Value := do
  return .array (List.intercalate separator (← allArrays (← i.forceAll ids)))

def byteOf (d : Double) : UInt8 := UInt8.ofNat (min (countOf d) 255)

/-- A builtin function at values of the right types. -/
def builtin (b : Builtin) (args : List Value) : Eval Value :=
  match b, args with
  | .typeOf, [v] => return .text (typeName v)
  | .length, [.text s] => return natural s.length
  | .length, [.array ids] => return natural ids.length
  | .length, [.object o] => return natural (← shownFields o).length
  | .id, [v] => return v
  | .extVar, [.text name] => do i.force (← require ((← get).externals.lookup name))
  | .trace, [.text _, v] => return v
  | .makeArray, [.number n, .function f] =>
    if n.toFloat < 0 then fail
    else do arrayOf (← (List.range (countOf n)).mapM fun k => i.call caller f [natural k])
  | .range, [.number first, .number last] =>
    if last.toFloat < first.toFloat then return .array []
    else arrayOf ((List.range' (countOf first) (countOf last + 1 - countOf first)).map natural)
  | .map, [.function f, .array ids] =>
    do arrayOf (← ids.mapM fun id => do i.call caller f [← i.force id])
  | .filter, [.function f, .array ids] => do arrayOf (← i.keep caller f (← i.forceAll ids))
  | .foldl, [.function f, .array ids, v] =>
    ids.foldlM (fun acc id => do i.call caller f [acc, ← i.force id]) v
  | .foldr, [.function f, .array ids, v] =>
    ids.reverse.foldlM (fun acc id => do i.call caller f [acc, ← i.force id]) v
  | .sortImpl, [.array ids, .function f] =>
    if ids.length ≤ 1 then return .array ids
    else do arrayOf (← sortedBy (← i.keyed caller f (← i.forceAll ids)))
  | .reverse, [.array ids] => return .array ids.reverse
  | .count, [.array ids, v] => return natural (← i.occurrences v ids)
  | .member, [.array ids, v] => return .bool (← i.holds v ids)
  | .member, [.text s, .text part] => return .bool (occurs part.toList s.toList)
  | .join, [.text separator, .array ids] => i.joinTexts separator ids
  | .join, [.array separator, .array ids] => i.joinArrays separator ids
  | .objectFieldsEx, [.object o, .bool all] =>
    do arrayOf ((fieldNames (← layersOf o) all).map .text)
  | .objectHasEx, [.object o, .text name, .bool all] => do
    let shown := shows? name (← layersOf o)
    return .bool (if all then shown.isSome else shown.getD false)
  | .substr, [.text s, .number first, .number length] =>
    if first.toFloat < 0 ∨ length.toFloat < 0 then fail
    else return .text (String.ofList ((s.toList.drop (countOf first)).take (countOf length)))
  | .splitLimit, [.text s, .text separator, .number most] =>
    match separator.toList with
    | [c] =>
      if most.toFloat < -1 then fail
      else
        let limit := if most.toFloat == -1 then none else some (countOf most)
        arrayOf ((cutAt c limit [] s.toList).map .text)
    | _ => fail
  | .strReplace, [.text s, .text pattern, .text replacement] =>
    if pattern.isEmpty then fail else return .text (replace s pattern replacement)
  | .asciiUpper, [.text s] => return .text (s.map raised)
  | .asciiLower, [.text s] => return .text (s.map lowered)
  | .codepoint, [.text s] =>
    match s.toList with
    | [c] => return natural c.toNat
    | _ => fail
  | .char, [.number n] => do
    return .text (String.singleton (← require (charOf? n.toFloat.toUInt32.toNat)))
  | .format, [.text s, v] => return .text (← i.format s v)
  | .md5, [.text s] => return .text (Text.Md5.hex (Text.utf8 s))
  | .base64, [.text s] => return .text (Text.Base64.encode (Text.utf8 s))
  | .base64, [.array ids] => do
    return .text (Text.Base64.encode ((← allNumbers (← i.forceAll ids)).map byteOf))
  | .base64Decode, [.text s] =>
    match Text.Base64.decode (Text.utf8 s) with
    | .ok bytes => do return .text (← require (Text.ofUtf8? bytes))
    | .error _ => fail
  | .escapeStringJson, [.text s] => return .text (quoted s)
  | .parseJson, [.text s] => do i.evaluate {} (.ofJson (← require (Json.parse? s)))
  | .manifestJsonEx, [v, .text step] => return .text (← i.print (.indented step) "" v)
  | .floor, [.number x] => return .number (.ofFloat x.toFloat.floor)
  | .ceil, [.number x] => return .number (.ofFloat x.toFloat.ceil)
  | .sqrt, [.number x] => return .number (.ofFloat x.toFloat.sqrt)
  | .pow, [.number x, .number n] => return .number (.ofFloat (x.toFloat.pow n.toFloat))
  | _, _ => fail

end

end Interpreter

end MachineProvider.Jsonnet
