import MachineProvider.Proofs.Kubernetes.SelectorText

/-! Labels that a selector admits, and those that the simple reading of its text selects. Simple
selectors are read as they are meant. -/
namespace MachineProvider.Kubernetes

variable {s : LabelSelector} {c : Clause} {key value : String} {labels : StringMap String}

/-- What a clause says of the labels of an object. -/
def Clause.HoldsFor (labels : StringMap String) : Clause → Prop
  | equals key value => labels.get? key = some value
  | isIn key values => ∃ v ∈ values, labels.get? key = some v
  | notIn key values => ∀ v ∈ values, labels.get? key ≠ some v
  | present key => labels.get? key ≠ none
  | absent key => labels.get? key = none

instance : (c : Clause) → Decidable (c.HoldsFor labels)
  | .equals key value => inferInstanceAs (Decidable (labels.get? key = some value))
  | .isIn key values => inferInstanceAs (Decidable (∃ v ∈ values, labels.get? key = some v))
  | .notIn key values => inferInstanceAs (Decidable (∀ v ∈ values, labels.get? key ≠ some v))
  | .present key => inferInstanceAs (Decidable (labels.get? key ≠ none))
  | .absent key => inferInstanceAs (Decidable (labels.get? key = none))

/-- Labels of which everything is true that a selector asks for. -/
def LabelSelector.Admits (s : LabelSelector) (labels : StringMap String) : Prop :=
  ∀ c ∈ s.clauses, c.HoldsFor labels

instance : Decidable (s.Admits labels) :=
  inferInstanceAs (Decidable (∀ c ∈ s.clauses, c.HoldsFor labels))

/-- A key with something in it, but no comma and no equality sign, and no exclamation
mark in front. -/
def IsPlainKey (key : String) : Prop :=
  key ≠ "" ∧ ',' ∉ key.toList ∧ '=' ∉ key.toList ∧ key.toList.head? ≠ some '!'

instance : Decidable (IsPlainKey key) := inferInstanceAs (Decidable (_ ∧ _))

/-- Labels to be equal, present or absent under plain keys, with no comma in a value
to be equal to. -/
structure LabelSelector.Simple (s : LabelSelector) : Prop where
  labels : ∀ p ∈ (s.matchLabels.getD .empty).toList, IsPlainKey p.1 ∧ ',' ∉ p.2.toList
  expressions : ∀ r ∈ s.matchExpressions.getD [],
    r.operator ∈ ["Exists", "DoesNotExist"] ∧ IsPlainKey r.key

/-- What the terms of a simple selector can say. -/
def Clause.Simple : Clause → Prop
  | equals key value => IsPlainKey key ∧ ',' ∉ value.toList
  | present key | absent key => IsPlainKey key
  | isIn _ _ | notIn _ _ => False

namespace SimpleTerm

variable {d : Char} {front back ds : List Char}

theorem splitAtFirst_append (h : d ∉ front) :
    splitAtFirst d (front ++ d :: back) = some (front, back) := by
  induction front with
  | nil => simp [splitAtFirst]
  | cons e front ih =>
    simp only [List.mem_cons, not_or] at h
    rw [List.cons_append, splitAtFirst, if_neg (Ne.symm h.1), ih h.2]
    rfl

theorem splitAtFirst_eq_none (h : d ∉ ds) : splitAtFirst d ds = none := by
  induction ds with
  | nil => rfl
  | cons e ds ih =>
    simp only [List.mem_cons, not_or] at h
    rw [splitAtFirst, if_neg (Ne.symm h.1), ih h.2]
    rfl

/-- The value is all behind the first equality sign, whatever is in it. -/
theorem read_equals (h : '=' ∉ key.toList) :
    read (key.toList ++ '=' :: value.toList) = .equals key value := by
  unfold read
  rw [splitAtFirst_append h]
  simp only [String.ofList_toList]

theorem read_absent (h : '=' ∉ key.toList) : read ('!' :: key.toList) = .absent key := by
  have hnone : splitAtFirst '=' ('!' :: key.toList) = none :=
    splitAtFirst_eq_none (by simpa using h)
  unfold read
  rw [hnone]
  simp only [String.ofList_toList]

theorem read_present (h : '=' ∉ key.toList) (hmark : key.toList.head? ≠ some '!') :
    read key.toList = .present key := by
  unfold read
  rw [splitAtFirst_eq_none h]
  dsimp only
  split
  · next htext =>
    rw [htext] at hmark
    exact absurd rfl hmark
  · rw [String.ofList_toList]

end SimpleTerm

/-- Terms that commas can be put between are read one by one. -/
theorem selects_intercalate {texts : List String}
    (h : ∀ t ∈ texts, t.toList ≠ [] ∧ ',' ∉ t.toList) :
    selects (String.intercalate "," texts) labels = true ↔
      ∀ t ∈ texts, (SimpleTerm.read t.toList).holds labels = true := by
  have hjoined : (String.intercalate "," texts).toList =
      [','].intercalate (texts.map String.toList) :=
    String.toList_intercalate
  have hterms : ((String.intercalate "," texts).toList.splitOn ',').filter (!·.isEmpty) =
      texts.map String.toList := by
    rw [hjoined]
    cases texts with
    | nil => rfl
    | cons t ts =>
      rw [List.splitOn_intercalate ',' (by simpa using fun t ht => (h t ht).2) (by simp),
        List.filter_eq_self]
      simpa using fun t ht => (h t ht).1
  rw [selects, hterms, List.all_map, List.all_eq_true]
  rfl

namespace Clause

/-- A simple clause is written as one term. -/
theorem Simple.single_term (h : c.Simple) : c.text.toList ≠ [] ∧ ',' ∉ c.text.toList := by
  cases c with
  | equals key value =>
    rw [toList_text_equals]
    exact ⟨by simp, by simp [h.1.2.1, h.2]⟩
  | present key => exact ⟨fun hempty => h.1 (String.toList_eq_nil_iff.1 hempty), h.2.1⟩
  | absent key =>
    rw [toList_text_absent]
    exact ⟨by simp, by simp [h.2.1]⟩
  | isIn key values | notIn key values => exact h.elim

theorem Simple.holds_read (h : c.Simple) :
    (SimpleTerm.read c.text.toList).holds labels = true ↔ c.HoldsFor labels := by
  cases c with
  | equals key value =>
    rw [toList_text_equals, SimpleTerm.read_equals h.1.2.2.1]
    exact beq_iff_eq
  | present key =>
    rw [text, SimpleTerm.read_present h.2.2.1 h.2.2.2]
    exact Option.isSome_iff_ne_none
  | absent key =>
    rw [toList_text_absent, SimpleTerm.read_absent h.2.2.1]
    simp [SimpleTerm.holds, HoldsFor, StringMap.contains]
  | isIn key values | notIn key values => exact h.elim

end Clause

namespace LabelSelector

theorem Simple.clauses (h : s.Simple) : ∀ c ∈ s.clauses, c.Simple := by
  intro c hc
  rcases List.mem_append.1 hc with hc | hc
  · obtain ⟨p, hp, rfl⟩ := List.mem_map.1 hc
    exact h.labels p hp
  · obtain ⟨r, hr, hc⟩ := List.mem_filterMap.1 hc
    obtain ⟨hoperator, hkey⟩ := h.expressions r hr
    simp only [List.mem_cons, List.not_mem_nil, or_false] at hoperator
    rcases hoperator with hop | hop
    all_goals
      simp only [Requirement.clause?, hop, Option.some.injEq] at hc
      exact hc ▸ hkey

theorem Simple.known (h : s.Simple) :
    ∀ r ∈ s.matchExpressions.getD [], r.operator ∈ selectorOperators := by
  intro r hr
  have hoperator := (h.expressions r hr).1
  simp only [List.mem_cons, List.not_mem_nil, or_false] at hoperator
  rcases hoperator with hop | hop <;> simp [hop, selectorOperators]

/-- The text of a simple selector selects the labels that the selector admits. -/
theorem Simple.exists_text (h : s.Simple) :
    ∃ text, selectorText s = .ok text ∧ ∀ labels, selects text labels = true ↔ s.Admits labels := by
  refine ⟨_, by rw [selectorText, text_of_known h.known]; rfl, fun labels => ?_⟩
  have hterms : ∀ t ∈ s.clauses.map Clause.text, t.toList ≠ [] ∧ ',' ∉ t.toList :=
    List.forall_mem_map.2 fun c hc => (h.clauses c hc).single_term
  rw [selects_intercalate hterms, List.forall_mem_map]
  exact forall₂_congr fun c hc => (h.clauses c hc).holds_read

end LabelSelector

end MachineProvider.Kubernetes
