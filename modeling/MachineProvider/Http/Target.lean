import MachineProvider.Text.Percent
/-!
What an address asks a server for: the path with its dots resolved and the query, percent-encoded.
The fragment is not sent.
-/
namespace MachineProvider.Http

/-- Controls, the blank and everything past ASCII are encoded everywhere. -/
def isPlain (b : UInt8) : Bool := 0x21 ≤ b.toNat && b.toNat ≤ 0x7e

def isPathByte (b : UInt8) : Bool :=
  let c := Char.ofNat b.toNat
  isPlain b && !(c == '"' || c == '<' || c == '>' || c == '\x60' || c == '\x7b' || c == '\x7d')

def isQueryByte (b : UInt8) : Bool :=
  let c := Char.ofNat b.toNat
  isPlain b && !(c == '"' || c == '<' || c == '>' || c == '\'')

def encodeBytes (keep : UInt8 → Bool) (cs : List Char) : List Char :=
  (Text.utf8 (String.ofList cs)).flatMap fun b =>
    if keep b then [Char.ofNat b.toNat] else Text.percentByte b

def lower (cs : List Char) : List Char := cs.map Char.toLower

/-- A segment for the same place. -/
def isSingleDot (cs : List Char) : Bool := lower cs == ['.'] || lower cs == ['%', '2', 'e']

/-- A segment for the place above. -/
def isDoubleDot (cs : List Char) : Bool :=
  match lower cs with
  | ['.', '.'] => true
  | ['.', '%', '2', 'e'] => true
  | ['%', '2', 'e', '.'] => true
  | ['%', '2', 'e', '%', '2', 'e'] => true
  | _ => false

/-- Segments with the dots resolved; `above` holds the kept ones, the last first. A dot at the end
leaves an empty segment. -/
def resolveDots (above : List (List Char)) : List (List Char) → List (List Char)
  | [] => above.reverse
  | s :: rest =>
    let close (kept : List (List Char)) := if rest.isEmpty then [] :: kept else kept
    if isDoubleDot s then resolveDots (close above.tail) rest
    else if isSingleDot s then resolveDots (close above) rest
    else resolveDots (encodeBytes isPathByte s :: above) rest

def isPathEnd (c : Char) : Bool := c == '?' || c == '#'

def isSlash (c : Char) : Bool := c == '/' || c == '\\'

/-- Runs between slashes, forward or backward. -/
def segments (cs : List Char) : List (List Char) :=
  (cs.map fun c => if isSlash c then '/' else c).splitOn '/'

/-- Line ends and tabs are dropped anywhere, blanks and controls at the end. -/
def tidy (cs : List Char) : List Char :=
  let trimmed := (cs.reverse.dropWhile fun c => c.toNat ≤ 32).reverse
  trimmed.filter fun c => !(c == '\t' || c == '\n' || c == '\r')

/-- The request target for what follows the host and port of an address; none when the host or
port would go on. -/
def target? (afterHost : String) : Option String :=
  let cs := tidy afterHost.toList
  let pathPart := cs.takeWhile (!isPathEnd ·)
  let rest := cs.dropWhile (!isPathEnd ·)
  let finish (path : List Char) : Option String :=
    match rest with
    | '?' :: query =>
      some (String.ofList (path ++ '?' :: encodeBytes isQueryByte (query.takeWhile (· != '#'))))
    | _ => some (String.ofList path)
  match pathPart with
  | [] => finish ['/']
  | c :: cs =>
    if isSlash c then finish ((resolveDots [] (segments cs)).flatMap ('/' :: ·)) else none

end MachineProvider.Http
