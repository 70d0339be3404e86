import MachineProvider.Kubernetes.LabelSelector
import Mathlib.Data.List.Basic

/-! How the text of a selector is read: words and marks first, then the requirements between the
commas that stand outside parentheses. -/
namespace MachineProvider.Kubernetes

/-- What a selector asks of the labels of one object. -/
inductive Clause where
  | equals (key value : String)
  | isIn (key : String) (values : List String)
  | notIn (key : String) (values : List String)
  | present (key : String)
  | absent (key : String)
deriving DecidableEq

namespace Selector

inductive Token where
  | word (text : String)
  | mark (c : Char)
deriving DecidableEq

def isBlank (c : Char) : Bool := c == ' ' || c == '\t' || c == '\r' || c == '\n'

def isMark (c : Char) : Bool :=
  c == ',' || c == '=' || c == '!' || c == '(' || c == ')' || c == '<' || c == '>'

/-- The word that ends here, if there is one. -/
def wordOf (cs : List Char) : List Token := if cs.isEmpty then [] else [.word (String.ofList cs)]

/-- The tokens of a text, behind the beginning of a word. -/
def scan (begun : List Char) : List Char → List Token
  | [] => wordOf begun
  | c :: cs =>
    if isBlank c then wordOf begun ++ scan [] cs
    else if isMark c then wordOf begun ++ .mark c :: scan [] cs
    else scan (begun ++ [c]) cs

def tokens (cs : List Char) : List Token := scan [] cs

/-- Whether parentheses are open behind a token. -/
def opens (inside : Bool) (t : Token) : Bool := if inside then t != .mark ')' else t == .mark '('

/-- The parts between commas outside parentheses. -/
def parts (inside : Bool) : List Token → List (List Token)
  | [] => [[]]
  | t :: ts =>
    if t = .mark ',' ∧ inside = false then [] :: parts false ts
    else (parts (opens inside t) ts).modifyHead (t :: ·)

/-- Values between commas, up to the closing parenthesis. A value may be empty. -/
def values? : List Token → Option (List String)
  | [.mark ')'] => some [""]
  | [.word v, .mark ')'] => some [v]
  | .mark ',' :: ts => (values? ts).map ("" :: ·)
  | .word v :: .mark ',' :: ts => (values? ts).map (v :: ·)
  | _ => none

def clause? : List Token → Option Clause
  | [.mark '!', .word key] => some (.absent key)
  | [.word key] => some (.present key)
  | [.word key, .mark '='] => some (.equals key "")
  | [.word key, .mark '=', .word value] => some (.equals key value)
  | .word key :: .word "in" :: .mark '(' :: ts => (values? ts).map (.isIn key)
  | .word key :: .word "notin" :: .mark '(' :: ts => (values? ts).map (.notIn key)
  | _ => none

/-- What a text asks for; an empty text asks for nothing. -/
def parse? (text : String) : Option (List Clause) :=
  let ts := tokens text.toList
  if ts.isEmpty then some [] else (parts false ts).mapM clause?

variable {c : Char} {cs ds begun : List Char} {t : Token} {ts rest : List Token} {inside : Bool}

/-- Characters that words consist of. -/
def IsWord (cs : List Char) : Prop := ∀ c ∈ cs, isBlank c = false ∧ isMark c = false

instance : Decidable (IsWord cs) := List.decidableBAll _ cs

theorem scan_word (h : IsWord cs) : scan begun cs = wordOf (begun ++ cs) := by
  induction cs generalizing begun with
  | nil => rw [scan, List.append_nil]
  | cons c cs ih =>
    obtain ⟨⟨hblank, hmark⟩, hcs⟩ := List.forall_mem_cons.1 h
    rw [scan, hblank, hmark]
    have hrest : scan (begun ++ [c]) cs = wordOf (begun ++ [c] ++ cs) := ih hcs
    simpa using hrest

/-- A mark ends a word wherever it stands. -/
theorem scan_mark (hblank : isBlank c = false) (hmark : isMark c = true) :
    scan begun (cs ++ c :: ds) = scan begun cs ++ .mark c :: tokens ds := by
  induction cs generalizing begun with
  | nil => simp [scan, hblank, hmark, tokens]
  | cons d cs ih =>
    simp only [List.cons_append, scan, ih]
    split
    · simp
    · split <;> simp

theorem scan_blank (hblank : isBlank c = true) :
    scan begun (cs ++ c :: ds) = scan begun cs ++ tokens ds := by
  induction cs generalizing begun with
  | nil => simp [scan, hblank, tokens]
  | cons d cs ih =>
    simp only [List.cons_append, scan, ih]
    split
    · simp
    · split <;> simp

theorem tokens_intercalate (texts : List (List Char)) :
    tokens ([','].intercalate texts) = [.mark ','].intercalate (texts.map tokens) := by
  induction texts with
  | nil => rfl
  | cons text texts ih =>
    cases texts with
    | nil => simp
    | cons next texts =>
      rw [List.intercalate_cons_cons, List.append_assoc, List.singleton_append, tokens,
        scan_mark rfl rfl, ih]
      simp only [List.map_cons, List.intercalate_cons_cons, List.append_assoc,
        List.singleton_append, tokens]

/-- Tokens that close the parentheses they open, with commas inside them only. -/
def Enclosed (inside : Bool) : List Token → Prop
  | [] => inside = false
  | t :: ts => (t = .mark ',' → inside = true) ∧ Enclosed (opens inside t) ts

theorem parts_enclosed (h : Enclosed inside ts) : parts inside ts = [ts] := by
  induction ts generalizing inside with
  | nil => rfl
  | cons t ts ih =>
    have hinside : ¬(t = .mark ',' ∧ inside = false) := fun ⟨ht, hi⟩ => by
      rw [h.1 ht] at hi
      cases hi
    rw [parts, if_neg hinside, ih h.2]
    rfl

theorem parts_append (h : Enclosed inside ts) :
    parts inside (ts ++ .mark ',' :: rest) = ts :: parts false rest := by
  induction ts generalizing inside with
  | nil =>
    cases h
    simp [parts]
  | cons t ts ih =>
    have hinside : ¬(t = .mark ',' ∧ inside = false) := fun ⟨ht, hi⟩ => by
      rw [h.1 ht] at hi
      cases hi
    rw [List.cons_append, parts, if_neg hinside, ih h.2]
    rfl

theorem parts_intercalate {pieces : List (List Token)} (hne : pieces ≠ [])
    (h : ∀ piece ∈ pieces, Enclosed false piece) :
    parts false ([.mark ','].intercalate pieces) = pieces := by
  induction pieces with
  | nil => exact absurd rfl hne
  | cons piece pieces ih =>
    obtain ⟨hpiece, hpieces⟩ := List.forall_mem_cons.1 h
    cases pieces with
    | nil => simpa using parts_enclosed hpiece
    | cons next pieces =>
      rw [List.intercalate_cons_cons, List.append_assoc, List.singleton_append, parts_append hpiece,
        ih (List.cons_ne_nil _ _) hpieces]

end Selector

end MachineProvider.Kubernetes
