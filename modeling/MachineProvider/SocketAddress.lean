/-! Socket addresses: an IP address of either version and a port. -/
namespace MachineProvider

inductive SocketAddress where
  | v4 (octets : List Nat) (port : Nat)
  /-- Eight groups of sixteen bits, and the zone of a link-local address. -/
  | v6 (groups : List Nat) (scope port : Nat)
deriving DecidableEq

namespace SocketAddress

abbrev Reader (α : Type) := List Char → Option (α × List Char)

def digit? (base : Nat) (c : Char) : Option Nat :=
  let n :=
    if '0' ≤ c ∧ c ≤ '9' then some (c.toNat - 48)
    else if 'a' ≤ c ∧ c ≤ 'f' then some (c.toNat - 87)
    else if 'A' ≤ c ∧ c ≤ 'F' then some (c.toNat - 55)
    else none
  n.filter (· < base)

/-- A number below a limit. -/
def number (base limit : Nat) : Reader Nat := fun cs =>
  let ds := cs.takeWhile fun c => (digit? base c).isSome
  let n := (ds.filterMap (digit? base)).foldl (fun n d => n * base + d) 0
  if ds.isEmpty || limit ≤ n then none else some (n, cs.drop ds.length)

/-- A decimal number up to 255 without leading zeros. -/
def octet : Reader Nat := fun cs => do
  let (n, rest) ← number 10 256 cs
  if cs.head? == some '0' && 1 < cs.length - rest.length then none else some (n, rest)

def literal (c : Char) : List Char → Option (List Char)
  | d :: rest => if c = d then some rest else none
  | [] => none

def ipv4 : Reader (List Nat) := fun cs => do
  let (a, cs) ← octet cs
  let (b, cs) ← octet (← literal '.' cs)
  let (c, cs) ← octet (← literal '.' cs)
  let (d, cs) ← octet (← literal '.' cs)
  return ([a, b, c, d], cs)

def port : Reader Nat := fun cs => do number 10 65536 (← literal ':' cs)

/-- One group of at most four hexadecimal digits. -/
def group : Reader Nat := fun cs =>
  match number 16 65536 cs with
  | some (n, rest) => if cs.length - rest.length ≤ 4 then some (n, rest) else none
  | none => none

/-- Groups of an IPv6 address, and whether an IPv4 address gave the last two. -/
structure Groups where
  groups : List Nat
  endsInV4 : Bool

/-- Up to `limit` groups with colons between them; an IPv4 address counts as the last two. -/
def groups : (limit : Nat) → (first : Bool) → List Char → Groups × List Char
  | 0, _, cs => (⟨[], false⟩, cs)
  | limit + 1, first, cs =>
    let start := if first then some cs else literal ':' cs
    match start with
    | none => (⟨[], false⟩, cs)
    | some inner =>
      match if limit = 0 then none else ipv4 inner with
      | some ([a, b, c, d], rest) => (⟨[a * 256 + b, c * 256 + d], true⟩, rest)
      | _ =>
        match group inner with
        | none => (⟨[], false⟩, cs)
        | some (g, rest) =>
          let (more, rest) := groups limit false rest
          (⟨g :: more.groups, more.endsInV4⟩, rest)

/-- Eight groups, or fewer around a double colon that stands for zeros; no IPv4 address comes
before it. -/
def ipv6 : Reader (List Nat) := fun cs =>
  let (front, rest) := groups 8 true cs
  let count := front.groups.length
  if count = 8 then some (front.groups, rest)
  else if front.endsInV4 then none
  else
    match rest with
    | ':' :: ':' :: rest =>
      let (back, rest) := groups (8 - (count + 1)) true rest
      let zeros := List.replicate (8 - count - back.groups.length) 0
      some (front.groups ++ zeros ++ back.groups, rest)
    | _ => none

def scope : Reader Nat := fun cs =>
  match cs with
  | '%' :: rest => number 10 0x100000000 rest
  | _ => some (0, cs)

def readV6 (cs : List Char) : Option SocketAddress := do
  let (gs, cs) ← ipv6 (← literal '[' cs)
  let (zone, cs) ← scope cs
  let (p, cs) ← port (← literal ']' cs)
  if cs.isEmpty then some (.v6 gs zone p) else none

def readV4 (cs : List Char) : Option SocketAddress := do
  let (octets, cs) ← ipv4 cs
  let (p, cs) ← port cs
  if cs.isEmpty then some (.v4 octets p) else none

def parse? (text : String) : Option SocketAddress :=
  readV4 text.toList <|> readV6 text.toList

/-- Start and length of the first longest run of zero groups. -/
def longestZeros (gs : List Nat) : Nat × Nat :=
  let runAt (i : Nat) : Nat := ((gs.drop i).takeWhile (· = 0)).length
  (List.range gs.length).foldl
    (fun best i => if best.2 < runAt i then (i, runAt i) else best) (0, 0)

def hexText (n : Nat) : String := String.ofList (Nat.toDigits 16 n)

def groupsText (gs : List Nat) : String := String.intercalate ":" (gs.map hexText)

def ipv4Text (octets : List Nat) : String := String.intercalate "." (octets.map toString)

/-- A double colon stands for the longest run of two zero groups or more. -/
def ipv6Text (gs : List Nat) : String :=
  match gs with
  | [0, 0, 0, 0, 0, 0xffff, a, b] => "::ffff:" ++ ipv4Text [a / 256, a % 256, b / 256, b % 256]
  | _ =>
    let (start, length) := longestZeros gs
    if 1 < length then s!"{groupsText (gs.take start)}::{groupsText (gs.drop (start + length))}"
    else groupsText gs

def text : SocketAddress → String
  | v4 octets port => s!"{ipv4Text octets}:{port}"
  | v6 gs 0 port => s!"[{ipv6Text gs}]:{port}"
  | v6 gs scope port => s!"[{ipv6Text gs}%{scope}]:{port}"

/-- Whether any host can listen there: on all its addresses, or on the one to itself. -/
def isLocal : SocketAddress → Bool
  | v4 octets _ => octets == [0, 0, 0, 0] || octets.head? == some 127
  | v6 gs _ _ => gs.all (· = 0) || gs == [0, 0, 0, 0, 0, 0, 0, 1]

end SocketAddress

end MachineProvider
