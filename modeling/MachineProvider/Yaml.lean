import MachineProvider.Json.Parser
/-!
The YAML of configuration files: block mappings and sequences by indentation, flow collections on
one line, plain and quoted scalars, comments. The result is a JSON document.
-/
namespace MachineProvider.Yaml

/-- A line by its indentation and what follows it. -/
structure Line where
  indent : Nat
  text : List Char
deriving Inhabited

def isBlank (c : Char) : Bool := c == ' ' || c == '\t' || c == '\r'

def trim (cs : List Char) : List Char :=
  ((cs.dropWhile isBlank).reverse.dropWhile isBlank).reverse

/-- The text in front of a comment; a number sign opens one after a blank and outside quotes. -/
def uncomment (quote : Option Char) (previous : Char) : List Char → List Char
  | [] => []
  | c :: rest =>
    match quote with
    | some q => c :: uncomment (if c = q then none else quote) c rest
    | none =>
      if c = '#' ∧ isBlank previous then []
      else
        let opens := (c = '"' ∨ c = '\'') ∧ ¬ previous.isAlphanum
        c :: uncomment (if opens then some c else none) c rest

/-- The lines with something on them, markers of a document's start left out. -/
def lines (text : String) : List Line :=
  (text.toList.splitOn '\n').filterMap fun raw =>
    let body := uncomment none ' ' raw
    let content := trim body
    if content.isEmpty || content == ['-', '-', '-'] then none
    else some ⟨(body.takeWhile (· = ' ')).length, content⟩

/-- A plain scalar: null, a truth value, an integer, or else text. -/
def plain (cs : List Char) : Json :=
  let s := String.ofList cs
  if s = "" ∨ s = "~" ∨ s = "null" ∨ s = "Null" ∨ s = "NULL" then .null
  else if s = "true" ∨ s = "True" ∨ s = "TRUE" then .bool true
  else if s = "false" ∨ s = "False" ∨ s = "FALSE" then .bool false
  else
    match s.toInt? with
    | some n => if s.startsWith "+" then .string s else .int n
    | none => .string s

/-- The text up to a closing single quote; two of them stand for one. -/
def singleQuoted : List Char → Option (List Char × List Char)
  | '\'' :: '\'' :: rest => (singleQuoted rest).map fun (s, rest) => ('\'' :: s, rest)
  | '\'' :: rest => some ([], rest)
  | c :: rest => (singleQuoted rest).map fun (s, rest) => (c :: s, rest)
  | [] => none

/-- A quoted text from its opening quote on. -/
def quoted? : List Char → Option (Option (String × List Char))
  | '"' :: rest => some (Json.Parser.stringBody "" rest)
  | '\'' :: rest => some ((singleQuoted rest).map fun (s, rest) => (String.ofList s, rest))
  | _ => none

def endsFlowScalar (c : Char) : Bool := c == ',' || c == ']' || c == '\x7d'

/-- A plain key or value inside a flow collection; a colon ends a key. -/
def flowPlain (isKey : Bool) : List Char → List Char × List Char
  | [] => ([], [])
  | c :: rest =>
    let ended := endsFlowScalar c || (isKey && c == ':' && (rest.head?.map isBlank).getD true)
    if ended then ([], c :: rest)
    else
      let (s, rest) := flowPlain isKey rest
      (c :: s, rest)

def skip (cs : List Char) : List Char := cs.dropWhile isBlank

mutual
/-- A value inside a flow collection. -/
def flowValue (fuel : Nat) (cs : List Char) : Option (Json × List Char) :=
  match fuel with
  | 0 => none
  | fuel + 1 =>
    match skip cs with
    | '[' :: rest => flowElements fuel rest []
    | '\x7b' :: rest => flowMembers fuel rest []
    | cs =>
      match quoted? cs with
      | some read => read.map fun (s, rest) => (.string s, rest)
      | none =>
        let (s, rest) := flowPlain false cs
        some (plain (trim s), rest)

def flowElements (fuel : Nat) (cs : List Char) (acc : List Json) : Option (Json × List Char) :=
  match fuel with
  | 0 => none
  | fuel + 1 =>
    match skip cs with
    | [] => none
    | ']' :: rest => some (.array acc.reverse, rest)
    | cs =>
      match flowValue fuel cs with
      | none => none
      | some (v, rest) =>
        match skip rest with
        | ',' :: rest => flowElements fuel rest (v :: acc)
        | ']' :: rest => some (.array (v :: acc).reverse, rest)
        | _ => none

def flowMembers (fuel : Nat) (cs : List Char) (acc : List (String × Json)) :
    Option (Json × List Char) :=
  match fuel with
  | 0 => none
  | fuel + 1 =>
    match skip cs with
    | [] => none
    | '\x7d' :: rest => some (.object acc.reverse, rest)
    | cs =>
      let key : Option (String × List Char) :=
        match quoted? cs with
        | some read => read
        | none =>
          let (s, rest) := flowPlain true cs
          some (String.ofList (trim s), rest)
      match key with
      | none => none
      | some (key, rest) =>
        match skip rest with
        | ':' :: rest =>
          match flowValue fuel rest with
          | none => none
          | some (v, rest) =>
            match skip rest with
            | ',' :: rest => flowMembers fuel rest ((key, v) :: acc)
            | '\x7d' :: rest => some (.object ((key, v) :: acc).reverse, rest)
            | _ => none
        | _ => none
end

/-- A value written on the rest of a line. -/
def inline (cs : List Char) : Option Json :=
  match cs with
  | '|' :: _ => none
  | '>' :: _ => none
  | '&' :: _ => none
  | '*' :: _ => none
  | c :: _ =>
    if c = '[' ∨ c = '\x7b' ∨ c = '"' ∨ c = '\'' then
      match flowValue (2 * cs.length + 2) cs with
      | some (v, rest) => if (skip rest).isEmpty then some v else none
      | none => none
    else some (plain cs)
  | [] => some .null

/-- Key and value of a mapping line: the first colon that a blank or the end follows. -/
def splitKey : List Char → Option (List Char × List Char)
  | [] => none
  | ':' :: rest =>
    if (rest.head?.map isBlank).getD true then some ([], trim rest)
    else (splitKey rest).map fun (k, v) => (':' :: k, v)
  | c :: rest => (splitKey rest).map fun (k, v) => (c :: k, v)

def key? (cs : List Char) : Option (String × List Char) :=
  match quoted? cs with
  | some (some (s, rest)) =>
    match skip rest with
    | ':' :: rest => some (s, trim rest)
    | _ => none
  | some none => none
  | none =>
    match cs with
    | '[' :: _ => none
    | '\x7b' :: _ => none
    | _ => (splitKey cs).map fun (k, v) => (String.ofList (trim k), v)

/-- The item behind a dash, as a line of its own. -/
def item? (l : Line) : Option Line :=
  match l.text with
  | ['-'] => some ⟨l.indent + 1, []⟩
  | '-' :: c :: rest =>
    if isBlank c then
      some ⟨l.indent + 2 + (rest.takeWhile isBlank).length, skip rest⟩
    else none
  | _ => none

mutual
/-- The node that the first line begins, and the lines after it. -/
def node (fuel : Nat) (ls : List Line) : Option (Json × List Line) :=
  match fuel, ls with
  | 0, _ => none
  | _, [] => some (.null, [])
  | fuel + 1, l :: rest =>
    if (item? l).isSome then sequence fuel l.indent (l :: rest) []
    else if (key? l.text).isSome then mapping fuel l.indent (l :: rest) []
    else (inline l.text).map fun v => (v, rest)

/-- The items at one indentation, those before them reversed in `acc`. -/
def sequence (fuel indent : Nat) (ls : List Line) (acc : List Json) : Option (Json × List Line) :=
  match fuel, ls with
  | 0, _ => none
  | _, [] => some (.array acc.reverse, [])
  | fuel + 1, l :: rest =>
    if l.indent < indent then some (.array acc.reverse, l :: rest)
    else if indent < l.indent then none
    else
      match item? l with
      | none => some (.array acc.reverse, l :: rest)
      | some inner =>
        let nested :=
          if inner.text.isEmpty then block fuel indent false rest else node fuel (inner :: rest)
        match nested with
        | none => none
        | some (v, rest) => sequence fuel indent rest (v :: acc)

/-- The members at one indentation, those before them reversed in `acc`. -/
def mapping (fuel indent : Nat) (ls : List Line) (acc : List (String × Json)) :
    Option (Json × List Line) :=
  match fuel, ls with
  | 0, _ => none
  | _, [] => some (.object acc.reverse, [])
  | fuel + 1, l :: rest =>
    if l.indent < indent then some (.object acc.reverse, l :: rest)
    else if indent < l.indent ∨ (item? l).isSome then none
    else
      match key? l.text with
      | none => none
      | some (key, value) =>
        let nested :=
          if value.isEmpty then block fuel indent true rest
          else (inline value).map fun v => (v, rest)
        match nested with
        | none => none
        | some (v, rest) =>
          if acc.any (·.1 = key) then none else mapping fuel indent rest ((key, v) :: acc)

/-- What stands below a line that has no value of its own; items of a mapping's value may start at
the same indentation. -/
def block (fuel indent : Nat) (itemsInLine : Bool) (ls : List Line) : Option (Json × List Line) :=
  match fuel, ls with
  | 0, _ => none
  | _, [] => some (.null, [])
  | fuel + 1, l :: rest =>
    if indent < l.indent ∨ (itemsInLine ∧ indent = l.indent ∧ (item? l).isSome) then
      node fuel (l :: rest)
    else some (.null, l :: rest)
end

/-- The document of a text. -/
def parse? (text : String) : Option Json :=
  let ls := lines text
  match node (4 * text.length + 4) ls with
  | some (v, []) => some v
  | _ => none

end MachineProvider.Yaml
