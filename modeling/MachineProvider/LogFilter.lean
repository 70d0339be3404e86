/-!
Which log lines are shown. Directives name a level, or a target and its level; the most specific
one that fits a line decides.
-/
namespace MachineProvider

inductive LogLevel where
  | off
  | error
  | warn
  | info
  | debug
  | trace
deriving DecidableEq, Inhabited

namespace LogLevel

def rank : LogLevel → Nat
  | off => 0
  | error => 1
  | warn => 2
  | info => 3
  | debug => 4
  | trace => 5

def text : LogLevel → String
  | off => "OFF"
  | error => "ERROR"
  | warn => "WARN"
  | info => "INFO"
  | debug => "DEBUG"
  | trace => "TRACE"

def all : List LogLevel := [off, error, warn, info, debug, trace]

/-- A level by name in any case, or by its rank. -/
def parse? (s : String) : Option LogLevel :=
  all.find? fun l => l.text == s.map Char.toUpper || toString l.rank == s

end LogLevel

/-- Shows lines of targets that start with a text, up to a level. -/
structure LogDirective where
  target : String
  level : LogLevel
  /-- Whether only lines inside a span are meant; nothing here logs inside one. -/
  inSpan : Bool
deriving DecidableEq

namespace LogDirective

def startsTarget (c : Char) : Bool := c.isAlphanum || c == '_' || c == ':' || c == '-'

/-- What follows an equals sign; nothing means all levels. -/
def levelOf? (cs : List Char) : Option LogLevel :=
  if cs.isEmpty then some .trace else LogLevel.parse? (String.ofList cs)

/-- The rest of a directive after the bracket that opens a span. -/
def ofSpan? (target : String) (cs : List Char) : Option LogDirective :=
  match cs.dropWhile (· != ']') with
  | [_] => some ⟨target, .trace, true⟩
  | _ :: '=' :: level => (levelOf? level).map fun l => ⟨target, l, true⟩
  | _ => none

/-- A bare level is for all targets, a bare target for all levels. -/
def ofName (s : String) : LogDirective :=
  match LogLevel.parse? s with
  | some level => ⟨"", level, false⟩
  | none => ⟨s, .trace, false⟩

def parse? (s : String) : Option LogDirective :=
  match s.toList with
  | [] => none
  | '[' :: span => ofSpan? "" span
  | c :: cs =>
    if !startsTarget c then none
    else
      let target := String.ofList ((c :: cs).takeWhile fun c => c != '=' && c != '[')
      match (c :: cs).dropWhile fun c => c != '=' && c != '[' with
      | [] => some (ofName s)
      | '=' :: level => (levelOf? level).map fun l => ⟨target, l, false⟩
      | _ :: span => ofSpan? target span

end LogDirective

/-- Directives for lines outside all spans, at most one for each target. -/
abbrev LogFilter := List LogDirective

namespace LogFilter

def add (f : LogFilter) (d : LogDirective) : LogFilter := d :: f.filter (·.target ≠ d.target)

/-- Only a filter without directives shows errors alone. -/
def ofDirectives : List LogDirective → LogFilter
  | [] => [⟨"", .error, false⟩]
  | ds => (ds.filter (!·.inSpan)).foldl add []

def default : LogFilter := [⟨"", .info, false⟩]

/-- Directives separated by commas; one that is malformed spoils all. -/
def parse? (s : String) : Option LogFilter :=
  let parts := (s.toList.splitOn ',').filter (!·.isEmpty)
  (parts.mapM fun p => LogDirective.parse? (String.ofList p)).map ofDirectives

/-- The filter a process asks for; without a usable one, everything up to information. -/
def ofSetting : Option String → LogFilter
  | none => default
  | some s => (parse? s).getD default

/-- The directive with the longest target that a line's target starts with. -/
def directive? (f : LogFilter) (target : String) : Option LogDirective :=
  (f.filter fun d => target.startsWith d.target).foldl
    (fun best d => match best with
      | some b => if b.target.length < d.target.length then some d else best
      | none => some d)
    none

def shows (f : LogFilter) (target : String) (level : LogLevel) : Bool :=
  match f.directive? target with
  | some d => level.rank ≤ d.level.rank
  | none => false

end LogFilter

end MachineProvider
