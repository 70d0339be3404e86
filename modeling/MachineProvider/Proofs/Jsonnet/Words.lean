import MachineProvider.Proofs.Jsonnet.Legible

/-! What stands between the values of a JSON text means the same in a template. -/
namespace MachineProvider.Jsonnet

variable {cs rest : List Char} {c : Char}

/-! ### Blanks -/

theorem isBlank_eq : Json.Parser.isBlank c = isBlank c := by
  unfold Json.Parser.isBlank isBlank
  rw [Bool.eq_iff_iff]
  simp only [Bool.or_eq_true, beq_iff_eq]
  constructor <;> rintro (((h | h) | h) | h) <;> simp [h]

theorem blank_cases (h : Json.Parser.isBlank c = true) :
    c = ' ' ∨ c = '\n' ∨ c = '\t' ∨ c = '\r' := by
  simpa [Json.Parser.isBlank, or_assoc] using h

/-- Where no comment begins, both languages skip the same blanks. -/
theorem skipBlanks_eq (h : ∀ r, Json.Parser.skipBlanks cs ≠ '/' :: r)
    (h' : ∀ r, Json.Parser.skipBlanks cs ≠ '#' :: r) :
    skipBlanks .none cs = Json.Parser.skipBlanks cs := by
  induction cs with
  | nil => rfl
  | cons c cs ih =>
    unfold Json.Parser.skipBlanks at h h' ih ⊢
    rw [List.dropWhile_cons] at h h' ⊢
    by_cases hc : Json.Parser.isBlank c = true
    · rw [if_pos hc] at h h' ⊢
      rw [← ih h h']
      rcases blank_cases hc with rfl | rfl | rfl | rfl <;> rfl
    · rw [if_neg hc] at h h' ⊢
      rw [isBlank_eq] at hc
      rw [skipBlanks, if_neg hc]
      · rintro r rfl -
        exact h _ rfl
      · rintro r rfl -
        exact h _ rfl
      · rintro rfl
        exact h' _ rfl

/-- A sign behind blanks, where no comment begins. -/
theorem skipBlanks_cons (h : Json.Parser.skipBlanks cs = c :: rest) (hc : c ≠ '/')
    (hc' : c ≠ '#') : skipBlanks .none cs = c :: rest := by
  refine (skipBlanks_eq (fun r hr => ?_) fun r hr => ?_).trans h
  · exact hc (List.cons.inj (h.symm.trans hr)).1
  · exact hc' (List.cons.inj (h.symm.trans hr)).1

theorem skipBlanks_nil (h : Json.Parser.skipBlanks cs = []) : skipBlanks .none cs = [] :=
  (skipBlanks_eq (fun r hr => by rw [h] at hr; cases hr)
    fun r hr => by rw [h] at hr; cases hr).trans h

/-- Blanks already skipped make no difference to what goes past each of them. -/
theorem apply_skipBlanks {β : Type} {f : List Char → β}
    (hf : ∀ c cs, Json.Parser.isBlank c = true → f (c :: cs) = f cs) (cs : List Char) :
    f (Json.Parser.skipBlanks cs) = f cs := by
  induction cs with
  | nil => rfl
  | cons c cs ih =>
    unfold Json.Parser.skipBlanks at ih ⊢
    rw [List.dropWhile_cons]
    by_cases hc : Json.Parser.isBlank c = true
    · rw [if_pos hc, ih, hf c cs hc]
    · rw [if_neg hc]

theorem skipBlanks_skipBlanks (cs : List Char) :
    skipBlanks .none (Json.Parser.skipBlanks cs) = skipBlanks .none cs := by
  refine apply_skipBlanks (fun c cs hc => ?_) cs
  rcases blank_cases hc with rfl | rfl | rfl | rfl <;> rfl

theorem passes_skipBlanks (check : List Char → Bool) (cs : List Char) :
    passes check (Json.Parser.skipBlanks cs) = passes check cs := by
  refine apply_skipBlanks (fun c cs hc => ?_) cs
  rcases blank_cases hc with rfl | rfl | rfl | rfl <;> rfl

theorem length_skipBlanks_le (cs : List Char) :
    (Json.Parser.skipBlanks cs).length ≤ cs.length :=
  (List.dropWhile_sublist _).length_le

/-! ### Up to where something ends -/

/-- What the checks of a text come to in front of the rest of it. -/
structure Checked (cs rest : List Char) (fit plain : Bool) : Prop where
  legible_eq : legible cs = (fit && legible rest)
  modest_eq : modest cs = (plain && modest rest)

namespace Checked

variable {r : List Char} {fit fit' plain plain' : Bool}

theorem of_passes (h : ∀ check, passes check cs = (fit && passes check rest)) :
    Checked cs rest fit fit := ⟨h _, h _⟩

theorem trans (h : Checked cs r fit plain) (h' : Checked r rest fit' plain') :
    Checked cs rest (fit && fit') (plain && plain') :=
  ⟨by rw [h.legible_eq, h'.legible_eq, Bool.and_assoc],
    by rw [h.modest_eq, h'.modest_eq, Bool.and_assoc]⟩

theorem congr (h : Checked r rest fit plain) (heq : ∀ check, passes check cs = passes check r) :
    Checked cs rest fit plain := ⟨(heq _).trans h.legible_eq, (heq _).trans h.modest_eq⟩

theorem skip (h : Checked r rest fit plain) (heq : Json.Parser.skipBlanks cs = r) :
    Checked cs rest fit plain :=
  h.congr fun check => by rw [← heq, passes_skipBlanks]

end Checked

/-! ### What follows a value -/

/-- A comma, or the end of an array or an object. -/
def Closes (c : Char) : Prop := c = ',' ∨ c = ']' ∨ c = '\x7d'

/-- Behind blanks the text ends, or the value before it does. -/
def Closed (cs : List Char) : Prop := ∀ c r, Json.Parser.skipBlanks cs = c :: r → Closes c

theorem Closed.of_eq {r : List Char} (h : Json.Parser.skipBlanks cs = c :: r) (hc : Closes c) :
    Closed cs := by
  intro d r' hd
  rw [h] at hd
  exact (List.cons.inj hd).1 ▸ hc

theorem Closed.of_nil (h : Json.Parser.skipBlanks cs = []) : Closed cs := by
  intro d r' hd
  rw [h] at hd
  cases hd

theorem Closed.nil : Closed [] := .of_nil rfl

/-- What stands behind the blanks. -/
theorem Closed.cases (h : Closed cs) : skipBlanks .none cs = [] ∨
    ∃ c r, skipBlanks .none cs = c :: r ∧ Closes c := by
  cases hs : Json.Parser.skipBlanks cs with
  | nil => exact .inl (skipBlanks_nil hs)
  | cons c r =>
    refine .inr ⟨c, r, skipBlanks_cons hs ?_ ?_, h c r hs⟩
    · rintro rfl
      rcases h _ r hs with h | h | h <;> cases h
    · rintro rfl
      rcases h _ r hs with h | h | h <;> cases h

/-- What the text begins with. -/
theorem Closed.head (h : Closed (c :: rest)) : Json.Parser.isBlank c = true ∨ Closes c := by
  by_cases hc : Json.Parser.isBlank c = true
  · exact .inl hc
  · refine .inr (h c rest ?_)
    rw [Json.Parser.skipBlanks, List.dropWhile_cons, if_neg hc]

/-- Neither a word nor a number goes on. -/
theorem Closed.ends (h : Closed (c :: rest)) :
    isWordChar c = false ∧ c ≠ '.' ∧ c ≠ 'e' ∧ c ≠ 'E' ∧ c ≠ '"' := by
  rcases h.head with hc | rfl | rfl | rfl
  · rcases blank_cases hc with rfl | rfl | rfl | rfl <;> decide
  · decide
  · decide
  · decide

/-- No operator begins where a value ends. -/
theorem operator_absent (h : cs = [] ∨ ∃ c r, cs = c :: r ∧ Closes c) :
    ∀ level ∈ precedences, ∀ op ∈ level.operators, op.1 cs = .absent := by
  simp only [precedences, List.forall_mem_cons, List.not_mem_nil, false_implies, implies_true,
    and_true]
  rcases h with rfl | ⟨c, r, rfl, rfl | rfl | rfl⟩
  all_goals
    and_intros
    all_goals rfl

end MachineProvider.Jsonnet
