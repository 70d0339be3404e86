/-!
Points in time, read from RFC 3339 text and written in UTC to the second. Blanks may stand around
the parts of a date and a time, and the offset may be spelt `UTC`.
-/
namespace MachineProvider

/-- Seconds since 1970 and nanoseconds on top; a leap second has a thousand million or more. -/
structure Timestamp where
  seconds : Int
  nanoseconds : Nat
deriving DecidableEq, Inhabited

namespace Timestamp

inductive Error where
  | invalid
  | outOfRange
  | impossible
  | tooShort
  | trailing
deriving DecidableEq

def Error.message : Error → String
  | .invalid => "input contains invalid characters"
  | .outOfRange => "input is out of range"
  | .impossible => "no possible date and time matching input"
  | .tooShort => "premature end of input"
  | .trailing => "trailing input"

/-- Days from 1970-01-01 to a date of the Gregorian calendar. -/
def daysFromCivil (year : Int) (month day : Nat) : Int :=
  let y := if month ≤ 2 then year - 1 else year
  let era := y.fdiv 400
  let yearOfEra := y - era * 400
  let shifted : Int := (month + 9) % 12
  let dayOfYear := (153 * shifted + 2) / 5 + day - 1
  era * 146097 + yearOfEra * 365 + yearOfEra / 4 - yearOfEra / 100 + dayOfYear - 719468

/-- Year, month and day of a number of days since 1970-01-01. -/
def civilFromDays (days : Int) : Int × Nat × Nat :=
  let z := days + 719468
  let era := z.fdiv 146097
  let dayOfEra := z - era * 146097
  let yearOfEra := (dayOfEra - dayOfEra / 1460 + dayOfEra / 36524 - dayOfEra / 146096) / 365
  let dayOfYear := dayOfEra - (365 * yearOfEra + yearOfEra / 4 - yearOfEra / 100)
  let shifted := (5 * dayOfYear + 2) / 153
  let day := dayOfYear - (153 * shifted + 2) / 5 + 1
  let month := if shifted < 10 then shifted + 3 else shifted - 9
  let year := yearOfEra + era * 400
  (if month ≤ 2 then year + 1 else year, month.toNat, day.toNat)

def isLeapYear (year : Int) : Bool := year % 4 == 0 && (year % 100 != 0 || year % 400 == 0)

def daysInMonth (year : Int) (month : Nat) : Nat :=
  if month = 2 then if isLeapYear year then 29 else 28
  else if month = 4 ∨ month = 6 ∨ month = 9 ∨ month = 11 then 30
  else 31

def padded (width n : Nat) : String :=
  let text := toString n
  String.ofList (List.replicate (width - text.length) '0') ++ text

/-- Years outside four digits carry a sign. -/
def yearText (year : Int) : String :=
  if 0 ≤ year ∧ year ≤ 9999 then padded 4 year.toNat
  else (if year < 0 then "-" else "+") ++ padded 4 year.natAbs

def text (t : Timestamp) : String :=
  let days := t.seconds.fdiv 86400
  let rest := (t.seconds - days * 86400).toNat
  let (year, month, day) := civilFromDays days
  let second := rest % 60 + t.nanoseconds / 1000000000
  s!"{yearText year}-{padded 2 month}-{padded 2 day}" ++
    s!"T{padded 2 (rest / 3600)}:{padded 2 (rest / 60 % 60)}:{padded 2 second}Z"

abbrev Reader (α : Type) := List Char → Except Error (α × List Char)

def isBlank (c : Char) : Bool :=
  c.isWhitespace || c == '\x0b' || c == '\x0c' || c == '\x85' || c == '\xa0' || c == '\u1680' ||
    ('\u2000' ≤ c && c ≤ '\u200a') || c == '\u2028' || c == '\u2029' || c == '\u202f' ||
    c == '\u205f' || c == '\u3000'

def skipBlanks (cs : List Char) : List Char := cs.dropWhile isBlank

/-- Digits up to a width, at least one. -/
def number (width : Nat) : Reader Nat := fun cs =>
  match cs with
  | [] => .error .tooShort
  | c :: _ =>
    if !c.isDigit then .error .invalid
    else
      let ds := (cs.take width).takeWhile Char.isDigit
      .ok (ds.foldl (fun n d => n * 10 + (d.toNat - 48)) 0, cs.drop ds.length)

def inRange (low high : Nat) (read : Reader Nat) : Reader Nat := fun cs => do
  let (n, rest) ← read cs
  if low ≤ n ∧ n ≤ high then .ok (n, rest) else .error .outOfRange

def literal (c : Char) : List Char → Except Error (List Char)
  | [] => .error .tooShort
  | d :: rest => if c = d then .ok rest else .error .invalid

/-- A two-digit field with blanks in front. -/
def field (low high : Nat) : Reader Nat := fun cs => inRange low high (number 2) (skipBlanks cs)

/-- A separator with blanks in front. -/
def separator (c : Char) (cs : List Char) : Except Error (List Char) := literal c (skipBlanks cs)

/-- Four digits, or any number of them behind a sign. -/
def year : Reader Int := fun cs => do
  let (n, rest) : Int × List Char ← match skipBlanks cs with
    | '-' :: rest => (number rest.length rest).map fun (n, rest) => (-(n : Int), rest)
    | '+' :: rest => (number rest.length rest).map fun (n, rest) => ((n : Int), rest)
    | cs => (number 4 cs).map fun (n, rest) => ((n : Int), rest)
  if n.natAbs < 0x80000000 then .ok (n, rest) else .error .outOfRange

/-- The nanoseconds behind a point; digits past the ninth count for nothing. -/
def fraction : Reader Nat := fun cs =>
  match cs with
  | '.' :: rest => do
    let (n, after) ← number 9 rest
    let width := rest.length - after.length
    .ok (n * Nat.pow 10 (9 - width), after.dropWhile Char.isDigit)
  | _ => .ok (0, cs)

def isUtcWord (cs : List Char) : Bool := (cs.take 3).map Char.toUpper == ['U', 'T', 'C']

/-- Hours and minutes east of the meridian, in seconds. -/
def signedOffset (cs : List Char) : Except Error (Nat × List Char) := do
  let (hours, rest) : Nat × List Char ← match cs with
    | a :: b :: rest =>
      if a.isDigit && b.isDigit then .ok ((a.toNat - 48) * 10 + (b.toNat - 48), rest)
      else .error .invalid
    | [c] => if c.toNat < 128 then .error .tooShort else .error .invalid
    | [] => .error .tooShort
  match rest.dropWhile fun c => c == ':' || isBlank c with
  | a :: b :: rest =>
    if a.isDigit && b.isDigit then
      if a < '6' then .ok (hours * 3600 + ((a.toNat - 48) * 10 + (b.toNat - 48)) * 60, rest)
      else .error .outOfRange
    else .error .invalid
  | [c] => if c.toNat < 128 then .error .tooShort else .error .invalid
  | [] => .error .tooShort

def offset : Reader Int := fun cs =>
  match cs with
  | 'Z' :: rest => .ok (0, rest)
  | 'z' :: rest => .ok (0, rest)
  | '+' :: rest => (signedOffset rest).map fun (n, rest) => ((n : Int), rest)
  | '-' :: rest => (signedOffset rest).map fun (n, rest) => (-(n : Int), rest)
  | '\u2212' :: rest => (signedOffset rest).map fun (n, rest) => (-(n : Int), rest)
  | [] => .error .tooShort
  | _ => .error .invalid

def firstYear : Int := -262143

def lastYear : Int := 262142

/-- The first second of the first year. -/
def firstSecond : Int := daysFromCivil firstYear 1 1 * 86400

/-- The second behind the last year. -/
def endSecond : Int := daysFromCivil (lastYear + 1) 1 1 * 86400

def parse (text : String) : Except Error Timestamp := do
  let (y, cs) ← year text.toList
  let cs ← separator '-' cs
  let (month, cs) ← field 1 12 cs
  let cs ← separator '-' cs
  let (day, cs) ← field 1 31 cs
  let cs ← match cs with
    | [] => .error .tooShort
    | c :: rest => if c == 't' || c == 'T' || c == ' ' then .ok rest else .error Error.invalid
  let (hour, cs) ← field 0 23 cs
  let cs ← separator ':' cs
  let (minute, cs) ← field 0 59 cs
  let cs ← separator ':' cs
  let (second, cs) ← field 0 60 cs
  let (nanos, cs) ← fraction cs
  let cs := skipBlanks cs
  let (east, cs) ← if isUtcWord cs then .ok (0, cs.drop 3) else offset cs
  unless (skipBlanks cs).isEmpty do throw .trailing
  if y < firstYear ∨ lastYear < y ∨ daysInMonth y month < day ∨ 86400 ≤ east.natAbs then
    throw .outOfRange
  let whole := if second = 60 then 59 else second
  let local_ := daysFromCivil y month day * 86400 + (hour * 3600 + minute * 60 + whole : Nat)
  let utc := local_ - east
  if utc < firstSecond ∨ endSecond ≤ utc then throw .impossible
  return ⟨utc, if second = 60 then nanos + 1000000000 else nanos⟩

end Timestamp

end MachineProvider
