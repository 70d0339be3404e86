import MachineProvider.Json.Basic
import MachineProvider.Text.Quoted
/-!
Decoding documents into types. A record reads from an object by field name or from an array by
position. Of several faults in an object the one of the earliest member is reported, and a missing
field only when no member is at fault.
-/
namespace MachineProvider.Json

inductive DecodeError where
  | wrongType (found : Json) (expected : String)
  | wrongValue (found : Json) (expected : String)
  | wrongLength (length : Nat) (expected : String)
  | unknownVariant (name : String) (known : List String)
  | missingField (name : String)
  | duplicateField (name : String)
  | malformed (text : String)

/-- The kind of a document and, for a scalar, its value. -/
def describe : Json → String
  | null => "null"
  | bool true => "boolean \x60true\x60"
  | bool false => "boolean \x60false\x60"
  | number (.integer n) => "integer \x60" ++ toString n ++ "\x60"
  | number (.double d) => "floating point \x60" ++ d.jsonText ++ "\x60"
  | string s => "string " ++ Text.quoted s
  | array _ => "sequence"
  | object _ => "map"

namespace DecodeError

def ticked (name : String) : String := "\x60" ++ name ++ "\x60"

/-- The names an enumeration knows. -/
def choices : List String → String
  | [a, b] => s!"{ticked a} or {ticked b}"
  | [a] => ticked a
  | names => "one of " ++ String.intercalate ", " (names.map ticked)

def message : DecodeError → String
  | wrongType found expected => s!"invalid type: {found.describe}, expected {expected}"
  | wrongValue found expected => s!"invalid value: {found.describe}, expected {expected}"
  | wrongLength n expected => s!"invalid length {n}, expected {expected}"
  | unknownVariant name known => s!"unknown variant {ticked name}, expected {choices known}"
  | missingField name => s!"missing field {ticked name}"
  | duplicateField name => s!"duplicate field {ticked name}"
  | malformed text => text

end DecodeError

abbrev Decoder (α : Type) := Json → Except DecodeError α

namespace Decoder

variable {α : Type}

def text : Decoder String
  | string s => .ok s
  | v => .error (.wrongType v "a string")

def flag : Decoder Bool
  | bool b => .ok b
  | v => .error (.wrongType v "a boolean")

/-- An integer within bounds; a double is none, even a whole one. -/
def integer (name : String) (low high : Int) : Decoder Int
  | number (.integer n) =>
    if low ≤ n ∧ n ≤ high then .ok n else .error (.wrongValue (.int n) name)
  | v => .error (.wrongType v name)

/-- A natural number below a power of two. -/
def natural (name : String) (bits : Nat) : Decoder Nat := fun v =>
  (integer name 0 (Nat.pow 2 bits - 1) v).map Int.toNat

def u8 : Decoder Nat := natural "u8" 8

def u16 : Decoder Nat := natural "u16" 16

def u32 : Decoder Nat := natural "u32" 32

def i32 : Decoder Int := integer "i32" (-0x80000000) 0x7fffffff

def i64 : Decoder Int := integer "i64" (-0x8000000000000000) 0x7fffffffffffffff

/-- Any document, in canonical form. -/
def any : Decoder Json := fun v => .ok v.canonical

/-- Null is absence. -/
def nullable (decode : Decoder α) : Decoder (Option α)
  | null => .ok none
  | v => (decode v).map some

/-- Null is the default. -/
def orDefault [Inhabited α] (decode : Decoder α) : Decoder α
  | null => .ok default
  | v => decode v

def each (decode : Decoder α) : List Json → Except DecodeError (List α)
  | [] => .ok []
  | v :: vs => do
    let a ← decode v
    let as ← each decode vs
    return a :: as

def list (decode : Decoder α) : Decoder (List α)
  | array vs => each decode vs
  | v => .error (.wrongType v "a sequence")

def eachMember (decode : Decoder α) : List (String × Json) → Except DecodeError (List (String × α))
  | [] => .ok []
  | (k, v) :: ms => do
    let a ← decode v
    let as ← eachMember decode ms
    return (k, a) :: as

/-- An object with values of one type; of repeated keys the last counts. -/
def map (decode : Decoder α) : Decoder (StringMap α)
  | object ms => (eachMember decode ms).map StringMap.ofList
  | v => .error (.wrongType v "a map")

/-- A name, or an object whose single key is the name with null under it. -/
def variant (names : List (String × α)) : Decoder α :=
  let choose (name : String) : Except DecodeError α :=
    match names.lookup name with
    | some a => .ok a
    | none => .error (.unknownVariant name (names.map (·.1)))
  fun
  | string s => choose s
  | object [(k, v)] => do
    let a ← choose k
    if v.isNull then .ok a else .error (.wrongType v "unit")
  | object ms => .error (.wrongValue (object ms) "map with a single key")
  | v => .error (.wrongType v "string or map")

end Decoder

/-- What the fields of a record are read from. -/
inductive Source where
  | members (ms : List (String × Json))
  | elements (vs : List Json)

/-- Why a field cannot be read. -/
inductive Fault where
  | absent (name : String)
  | bad (error : DecodeError)

/-- A fault and its place among the faults of a record; the lowest place is reported. -/
structure Misread where
  place : Nat
  fault : Fault

/-- The fields of a record: their names in order, and how they are read from the given position. -/
structure Fields (α : Type) where
  names : List String
  read : Source → Nat → Except Misread α

namespace Fields

variable {α β : Type}

def pure (a : α) : Fields α := ⟨[], fun _ _ => .ok a⟩

/-- Both groups of fields; of two faults the one at the lower place stands. -/
def seq (f : Fields (α → β)) (x : Fields α) : Fields β where
  names := f.names ++ x.names
  read source position :=
    match f.read source position, x.read source (position + f.names.length) with
    | .ok g, .ok a => .ok (g a)
    | .error e, .ok _ => .error e
    | .ok _, .error e => .error e
    | .error e, .error e' => .error (if e'.place < e.place then e' else e)

instance : Pure Fields := ⟨pure⟩

instance : Seq Fields := ⟨fun f x => seq f (x ())⟩

instance : Functor Fields := ⟨fun f x => seq (pure f) x, fun a x => seq (pure fun _ => a) x⟩

/-- The position of the last member under a name, and its value. -/
def lookup (name : String) : List (String × Json) → Nat → Option (Nat × Json)
  | [], _ => none
  | (k, v) :: ms, i =>
    match lookup name ms (i + 1) with
    | some found => some found
    | none => if k = name then some (i, v) else none

/-- One field, with what stands for it when it is absent from an object and from an array. -/
def single (name : String) (decode : Decoder α) (unnamed missing : Option α) : Fields α where
  names := [name]
  read
    | .members ms, position =>
      match lookup name ms 0 with
      | some (i, v) => (decode v).mapError fun e => ⟨i, .bad e⟩
      | none => match unnamed with
        | some a => .ok a
        | none => .error ⟨ms.length + position, .absent name⟩
    | .elements vs, position =>
      match vs[position]? with
      | some v => (decode v).mapError fun e => ⟨position, .bad e⟩
      | none => match missing with
        | some a => .ok a
        | none => .error ⟨position, .absent name⟩

def required (name : String) (decode : Decoder α) : Fields α := single name decode none none

def optional (name : String) (decode : Decoder α) (absent : α) : Fields α :=
  single name decode (some absent) (some absent)

/-- A field for which absent and null are the same. -/
def nullable (name : String) (decode : Decoder α) : Fields (Option α) :=
  optional name (Decoder.nullable decode) none

/-- A field that an object may leave out but an array may not. -/
def nullableInPlace (name : String) (decode : Decoder α) : Fields (Option α) :=
  single name (Decoder.nullable decode) (some none) none

/-- A field for which absent and null are its default. -/
def defaulted [Inhabited α] (name : String) (decode : Decoder α) : Fields α :=
  optional name (Decoder.orDefault decode) default

/-- How often a key occurs. -/
def occurrences (name : String) (ms : List (String × Json)) : Nat := ms.countP (·.1 = name)

def elementCount (n : Nat) : String := if n = 1 then "1 element" else s!"{n} elements"

/-- A record that may also be written as an array; no field may be named twice. -/
def record (name : String) (fields : Fields α) : Decoder α
  | .object ms =>
    match fields.names.find? fun n => 1 < occurrences n ms with
    | some n => .error (.duplicateField n)
    | none =>
      match fields.read (.members ms) 0 with
      | .ok a => .ok a
      | .error ⟨_, .bad e⟩ => .error e
      | .error ⟨_, .absent n⟩ => .error (.missingField n)
  | .array vs =>
    match fields.read (.elements vs) 0 with
    | .ok a =>
      if vs.length ≤ fields.names.length then .ok a
      else .error (.wrongLength vs.length "fewer elements in array")
    | .error ⟨_, .bad e⟩ => .error e
    | .error ⟨i, .absent _⟩ =>
      .error (.wrongLength i s!"struct {name} with {elementCount fields.names.length}")
  | v => .error (.wrongType v s!"struct {name}")

/-- A record that is always an object; of repeated members the last counts. -/
def named (name : String) (fields : Fields α) : Decoder α
  | .object ms =>
    match fields.read (.members ms) 0 with
    | .ok a => .ok a
    | .error ⟨_, .bad e⟩ => .error e
    | .error ⟨_, .absent n⟩ => .error (.missingField n)
  | v => .error (.wrongType v name)

end Fields

end MachineProvider.Json
