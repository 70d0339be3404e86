import MachineProvider.Actuator.UserData
import MachineProvider.Proofs.Kubernetes.SelectorGrammar
import MachineProvider.Proofs.Text.Splitting

/-! The text of a selector is read back as the requirements of the selector. -/
namespace MachineProvider.Kubernetes

open Selector (IsWord Token Enclosed wordOf tokens clause?)
open Text (isAlphanumeric)

variable {s : LabelSelector} {r : Requirement} {c : Clause} {key v : String} {vs : List String}

/-- The name of a label: letters and digits, and between them also dashes, underscores and dots. -/
def isLabelName (cs : List Char) : Bool :=
  cs.length ≤ 63 && cs.head?.any isAlphanumeric && cs.getLast?.any isAlphanumeric &&
    cs.all fun c => isAlphanumeric c || c == '-' || c == '_' || c == '.'

def isLowercase (c : Char) : Bool := isAlphanumeric c && !('A' ≤ c && c ≤ 'Z')

/-- Small letters and digits, and dashes between them, in parts with dots between them. -/
def isSubdomain (cs : List Char) : Bool :=
  cs.length ≤ 253 && (cs.splitOn '.').all fun part =>
    part.head?.any isLowercase && part.getLast?.any isLowercase &&
      part.all fun c => isLowercase c || c == '-'

/-- A name, or a name behind a domain and a slash. -/
def isLabelKey (s : String) : Bool :=
  match s.toList.splitOn '/' with
  | [name] => isLabelName name
  | [domain, name] => isSubdomain domain && isLabelName name
  | _ => false

def isLabelValue (s : String) : Bool := s.isEmpty || isLabelName s.toList

/-- The operators that selectors have. -/
def selectorOperators : List String := ["In", "NotIn", "Exists", "DoesNotExist"]

/-- What an expression asks for; present and absent keys have no values. -/
def Requirement.clause? (r : Requirement) : Option Clause :=
  match r.operator with
  | "In" => some (.isIn r.key (r.values.getD []))
  | "NotIn" => some (.notIn r.key (r.values.getD []))
  | "Exists" => some (.present r.key)
  | "DoesNotExist" => some (.absent r.key)
  | _ => none

namespace LabelSelector

/-- What a selector asks for: its labels by key, then its expressions in order. -/
def clauses (s : LabelSelector) : List Clause :=
  (s.matchLabels.getD .empty).toList.map (fun (k, v) => .equals k v) ++
    (s.matchExpressions.getD []).filterMap Requirement.clause?

/-- Keys and values are those of labels, and a list of values has no empty ones but some. -/
structure Legal (s : LabelSelector) : Prop where
  labels : ∀ p ∈ (s.matchLabels.getD .empty).toList, isLabelKey p.1 = true ∧ isLabelValue p.2 = true
  keys : ∀ r ∈ s.matchExpressions.getD [], isLabelKey r.key = true
  values : ∀ r ∈ s.matchExpressions.getD [], r.operator ∈ ["In", "NotIn"] →
    r.values.getD [] ≠ [] ∧ ∀ v ∈ r.values.getD [], v ≠ "" ∧ isLabelValue v = true

end LabelSelector

namespace Clause

def text : Clause → String
  | equals key value => s!"{key}={value}"
  | isIn key values =>
    let values := String.intercalate "," values
    s!"{key} in ({values})"
  | notIn key values =>
    let values := String.intercalate "," values
    s!"{key} notin ({values})"
  | present key => key
  | absent key => "!" ++ key

/-- Words that are not empty where the text has no other sign of them. -/
def Legible : Clause → Prop
  | equals key value => (key ≠ "" ∧ IsWord key.toList) ∧ IsWord value.toList
  | isIn key values => (key ≠ "" ∧ IsWord key.toList) ∧ values ≠ [] ∧
    ∀ v ∈ values, v ≠ "" ∧ IsWord v.toList
  | notIn key values => (key ≠ "" ∧ IsWord key.toList) ∧ values ≠ [] ∧
    ∀ v ∈ values, v ≠ "" ∧ IsWord v.toList
  | present key => key ≠ "" ∧ IsWord key.toList
  | absent key => key ≠ "" ∧ IsWord key.toList

/-- The tokens of a list of values behind its opening parenthesis. -/
def listTokens (values : List String) : List Token :=
  [.mark ','].intercalate (values.map fun v => [.word v]) ++ [.mark ')']

def tokens : Clause → List Token
  | equals key value => .word key :: .mark '=' :: wordOf value.toList
  | isIn key values => .word key :: .word "in" :: .mark '(' :: listTokens values
  | notIn key values => .word key :: .word "notin" :: .mark '(' :: listTokens values
  | present key => [.word key]
  | absent key => [.mark '!', .word key]

end Clause

/-- The characters of labels. -/
def isLabelCharacter (c : Char) : Bool := isAlphanumeric c || ['-', '_', '.', '/'].contains c

theorem isWord_of_label {cs : List Char} (h : ∀ c ∈ cs, isLabelCharacter c = true) : IsWord cs := by
  have hplain : ∀ d ∈ [' ', '\t', '\r', '\n', ',', '=', '!', '(', ')', '<', '>'],
      isLabelCharacter d = false := by
    simp [isLabelCharacter, isAlphanumeric]
  intro c hc
  have hne : c ∉ [' ', '\t', '\r', '\n', ',', '=', '!', '(', ')', '<', '>'] := fun hmem =>
    Bool.false_ne_true ((hplain c hmem).symm.trans (h c hc))
  simp only [List.mem_cons, not_or] at hne
  simp [Selector.isBlank, Selector.isMark, hne]

theorem label_of_name {cs : List Char} (h : isLabelName cs = true) :
    cs ≠ [] ∧ ∀ c ∈ cs, isLabelCharacter c = true := by
  simp only [isLabelName, Bool.and_eq_true, List.all_eq_true, Bool.or_eq_true, beq_iff_eq] at h
  obtain ⟨⟨⟨-, hhead⟩, -⟩, hall⟩ := h
  refine ⟨?_, fun c hc => ?_⟩
  · rintro rfl
    cases hhead
  · rcases hall c hc with ((hc | rfl) | rfl) | rfl
    · simp [isLabelCharacter, hc]
    all_goals rfl

theorem label_of_subdomain {cs : List Char} (h : isSubdomain cs = true) :
    ∀ c ∈ cs, isLabelCharacter c = true := by
  intro c hc
  rcases Text.mem_splitOn (c := '.') hc with rfl | ⟨part, hpart, hc⟩
  · rfl
  · simp only [isSubdomain, isLowercase, Bool.and_eq_true, List.all_eq_true, Bool.or_eq_true,
      beq_iff_eq] at h
    rcases (h.2 part hpart).2 c hc with hc | rfl
    · simp [isLabelCharacter, hc.1]
    · rfl

theorem word_of_labelKey (h : isLabelKey key = true) : key ≠ "" ∧ IsWord key.toList := by
  have hpieces : ∃ name, name ≠ [] ∧ name ∈ key.toList.splitOn '/' ∧
      ∀ piece ∈ key.toList.splitOn '/', ∀ c ∈ piece, isLabelCharacter c = true := by
    unfold isLabelKey at h
    split at h
    · next name hsplit =>
      obtain ⟨hne, hname⟩ := label_of_name h
      exact ⟨name, hne, by simp [hsplit], by simpa [hsplit] using hname⟩
    · next domain name hsplit =>
      obtain ⟨hdomain, hname⟩ := Bool.and_eq_true_iff.1 h
      obtain ⟨hne, hname⟩ := label_of_name hname
      refine ⟨name, hne, by simp [hsplit], ?_⟩
      simpa [hsplit] using ⟨label_of_subdomain hdomain, hname⟩
    · cases h
  obtain ⟨name, hne, hname, hall⟩ := hpieces
  constructor
  · rintro rfl
    exact hne (by simpa using hname)
  · refine isWord_of_label fun c hc => ?_
    rcases Text.mem_splitOn (c := '/') hc with rfl | ⟨piece, hpiece, hc⟩
    · rfl
    · exact hall piece hpiece c hc

theorem word_of_labelValue (h : isLabelValue v = true) : IsWord v.toList := by
  unfold isLabelValue at h
  rcases Bool.or_eq_true_iff.1 h with h | h
  · obtain rfl := String.isEmpty_iff.1 h
    intro c hc
    cases hc
  · exact isWord_of_label (label_of_name h).2

namespace Clause

theorem tokens_word {cs : List Char} (h : IsWord cs) : Selector.tokens cs = wordOf cs :=
  Selector.scan_word h

theorem tokens_key (h : key ≠ "" ∧ IsWord key.toList) :
    Selector.tokens key.toList = [.word key] := by
  rw [tokens_word h.2, wordOf, if_neg (by simpa using h.1), String.ofList_toList]

theorem tokens_list (h : ∀ v ∈ vs, v ≠ "" ∧ IsWord v.toList) :
    Selector.tokens ([','].intercalate (vs.map String.toList) ++ [')']) = listTokens vs := by
  have hvalues : vs.map (Selector.tokens ∘ String.toList) = vs.map fun v => [.word v] :=
    List.map_congr_left fun v hv => tokens_key (h v hv)
  unfold listTokens
  rw [Selector.tokens, Selector.scan_mark rfl rfl, ← Selector.tokens, Selector.tokens_intercalate,
    List.map_map, hvalues]
  rfl

/-- A text with a blank and parentheses is a key, an operator and a list. -/
theorem tokens_membership (operator : String) (hoperator : operator ≠ "" ∧ IsWord operator.toList)
    (hkey : key ≠ "" ∧ IsWord key.toList) (hvalues : ∀ v ∈ vs, v ≠ "" ∧ IsWord v.toList) :
    Selector.tokens (key.toList ++ ' ' :: (operator.toList ++ ' ' :: '(' ::
        ([','].intercalate (vs.map String.toList) ++ [')']))) =
      .word key :: .word operator :: .mark '(' :: listTokens vs := by
  have hopened : Selector.tokens ('(' :: ([','].intercalate (vs.map String.toList) ++ [')'])) =
      .mark '(' :: listTokens vs := by
    rw [← tokens_list hvalues]
    rfl
  rw [Selector.tokens, Selector.scan_blank rfl, ← Selector.tokens, tokens_key hkey, Selector.tokens,
    Selector.scan_blank rfl, ← Selector.tokens, tokens_key hoperator, hopened]
  rfl

theorem toList_text_equals : (equals key v).text.toList = key.toList ++ '=' :: v.toList := by
  simp [text, toString]

theorem toList_text_absent : (absent key).text.toList = '!' :: key.toList := by simp [text]

theorem tokens_text (h : c.Legible) : Selector.tokens c.text.toList = c.tokens := by
  cases c with
  | equals key value =>
    rw [toList_text_equals, Selector.tokens, Selector.scan_mark rfl rfl, ← Selector.tokens,
      tokens_key h.1, tokens_word h.2]
    rfl
  | isIn key values =>
    have htext : (isIn key values).text.toList = key.toList ++ ' ' :: ("in".toList ++ ' ' :: '(' ::
        ([','].intercalate (values.map String.toList) ++ [')'])) := by
      simp [text, toString]
    rw [htext, tokens_membership "in" (by decide) h.1 h.2.2]
    rfl
  | notIn key values =>
    have htext : (notIn key values).text.toList =
        key.toList ++ ' ' :: ("notin".toList ++ ' ' :: '(' ::
        ([','].intercalate (values.map String.toList) ++ [')'])) := by
      simp [text, toString]
    rw [htext, tokens_membership "notin" (by decide) h.1 h.2.2]
    rfl
  | present key => exact tokens_key h
  | absent key =>
    have hmark : Selector.tokens ([] ++ '!' :: key.toList) =
        .mark '!' :: Selector.tokens key.toList :=
      Selector.scan_mark rfl rfl
    rw [toList_text_absent, ← List.nil_append ('!' :: key.toList), hmark, tokens_key h]
    rfl

theorem listTokens_cons (v : String) (hvs : vs ≠ []) :
    listTokens (v :: vs) = .word v :: .mark ',' :: listTokens vs := by
  obtain ⟨next, rest, rfl⟩ := List.exists_cons_of_ne_nil hvs
  simp [listTokens, List.intercalate_cons_cons]

theorem enclosed_listTokens (vs : List String) : Enclosed true (listTokens vs) := by
  induction vs with
  | nil => simp [listTokens, Enclosed, Selector.opens]
  | cons v vs ih =>
    by_cases hvs : vs = []
    · subst hvs
      simp [listTokens, Enclosed, Selector.opens]
    · rw [listTokens_cons v hvs]
      exact ⟨(nomatch ·), fun _ => rfl, ih⟩

theorem values?_listTokens (hvs : vs ≠ []) : Selector.values? (listTokens vs) = some vs := by
  induction vs with
  | nil => exact absurd rfl hvs
  | cons v vs ih =>
    by_cases hvs : vs = []
    · subst hvs
      rfl
    · rw [listTokens_cons v hvs, Selector.values?, ih hvs]
      rfl

theorem enclosed_tokens (c : Clause) : Enclosed false c.tokens := by
  cases c with
  | equals key value =>
    unfold tokens wordOf
    dsimp only
    split <;> simp [Enclosed, Selector.opens]
  | isIn key values | notIn key values =>
    simpa [tokens, Enclosed, Selector.opens] using enclosed_listTokens values
  | present key | absent key => simp [tokens, Enclosed, Selector.opens]

theorem clause?_tokens (h : c.Legible) : clause? c.tokens = some c := by
  cases c with
  | equals key value =>
    unfold tokens wordOf
    dsimp only
    split
    · next hempty =>
      have hvalue : value = "" := by simpa using hempty
      rw [hvalue]
      rfl
    · rw [String.ofList_toList]
      rfl
  | isIn key values | notIn key values =>
    simp only [tokens, clause?, values?_listTokens h.2.1, Option.map_some]
  | present key => rfl
  | absent key => rfl

/-- Clauses that are joined by commas are read one by one. -/
theorem parse?_text {cs : List Clause} (h : ∀ c ∈ cs, c.Legible) :
    Selector.parse? (String.intercalate "," (cs.map text)) = some cs := by
  have hpieces : cs.map (Selector.tokens ∘ String.toList ∘ text) = cs.map tokens :=
    List.map_congr_left fun c hc => tokens_text (h c hc)
  have htokens : Selector.tokens (String.intercalate "," (cs.map text)).toList =
      [.mark ','].intercalate (cs.map tokens) := by
    rw [String.toList_intercalate, List.map_map]
    change Selector.tokens ([','].intercalate _) = _
    rw [Selector.tokens_intercalate, List.map_map, hpieces]
  have hread : (cs.map tokens).mapM clause? = some cs := by
    rw [List.mapM_map]
    clear hpieces htokens
    induction cs with
    | nil => rfl
    | cons c cs ih =>
      obtain ⟨hc, hcs⟩ := List.forall_mem_cons.1 h
      simp [List.mapM_cons, clause?_tokens hc, ih hcs]
  unfold Selector.parse?
  rw [htokens]
  cases cs with
  | nil => rfl
  | cons c cs =>
    have hne : ([.mark ','].intercalate ((c :: cs).map tokens)).isEmpty = false := by
      cases cs <;> cases c <;> simp [tokens]
    have henclosed : ∀ piece ∈ (c :: cs).map tokens, Enclosed false piece := by
      intro piece hpiece
      obtain ⟨clause, -, rfl⟩ := List.mem_map.1 hpiece
      exact clause.enclosed_tokens
    dsimp only
    rw [hne, Selector.parts_intercalate (by simp) henclosed, hread]
    rfl

end Clause

namespace Requirement

theorem term?_eq (r : Requirement) : r.term? = r.clause?.map Clause.text := by
  unfold term? clause?
  dsimp only
  split <;> simp_all [Clause.text]

theorem clause?_eq_none_iff : r.clause? = none ↔ r.operator ∉ selectorOperators := by
  unfold clause?
  split <;> simp_all [selectorOperators]

end Requirement

namespace LabelSelector

theorem Legal.legible (h : s.Legal) : ∀ c ∈ s.clauses, c.Legible := by
  intro c hc
  rcases List.mem_append.1 hc with hc | hc
  · obtain ⟨⟨key, value⟩, hp, rfl⟩ := List.mem_map.1 hc
    obtain ⟨hkey, hvalue⟩ := h.labels _ hp
    exact ⟨word_of_labelKey hkey, word_of_labelValue hvalue⟩
  · obtain ⟨r, hr, hc⟩ := List.mem_filterMap.1 hc
    have hkey := word_of_labelKey (h.keys r hr)
    have hvalues : r.operator ∈ ["In", "NotIn"] → r.values.getD [] ≠ [] ∧
        ∀ v ∈ r.values.getD [], v ≠ "" ∧ IsWord v.toList := fun hoperator =>
      (h.values r hr hoperator).imp_right fun hv v hmem =>
        (hv v hmem).imp_right word_of_labelValue
    unfold Requirement.clause? at hc
    split at hc
    · next hop => exact Option.some_inj.1 hc ▸ ⟨hkey, hvalues (by simp [hop])⟩
    · next hop => exact Option.some_inj.1 hc ▸ ⟨hkey, hvalues (by simp [hop])⟩
    · exact Option.some_inj.1 hc ▸ hkey
    · exact Option.some_inj.1 hc ▸ hkey
    · cases hc

theorem terms_of_known {rs : List Requirement} (h : ∀ r ∈ rs, r.operator ∈ selectorOperators) :
    terms rs = .ok ((rs.filterMap Requirement.clause?).map Clause.text) := by
  induction rs with
  | nil => rfl
  | cons r rs ih =>
    obtain ⟨hr, hrs⟩ := List.forall_mem_cons.1 h
    obtain ⟨c, hc⟩ := Option.ne_none_iff_exists'.1 fun hnone =>
      Requirement.clause?_eq_none_iff.1 hnone hr
    rw [terms, r.term?_eq, hc, ih hrs, List.filterMap_cons_some hc]
    rfl

theorem terms_of_unknown {rs : List Requirement} (h : ∃ r ∈ rs, r.operator ∉ selectorOperators) :
    ∃ operator, terms rs = .error operator := by
  induction rs with
  | nil => simp at h
  | cons r rs ih =>
    rw [terms, r.term?_eq]
    cases hc : r.clause? with
    | none => exact ⟨_, rfl⟩
    | some c =>
      have hknown : ¬r.operator ∉ selectorOperators := fun hr => by
        rw [Requirement.clause?_eq_none_iff.2 hr] at hc
        cases hc
      obtain ⟨operator, hrs⟩ := ih ((List.exists_mem_cons_iff _ _ _).1 h |>.resolve_left hknown)
      exact ⟨operator, by rw [hrs]; rfl⟩

theorem text_of_known (h : ∀ r ∈ s.matchExpressions.getD [], r.operator ∈ selectorOperators) :
    s.text = .ok (String.intercalate "," (s.clauses.map Clause.text)) := by
  unfold text
  rw [terms_of_known h]
  simp [clauses, Function.comp_def, Clause.text]

end LabelSelector

end MachineProvider.Kubernetes

namespace MachineProvider

open Kubernetes (Clause LabelSelector Selector.parse? selectorOperators)

variable {s : LabelSelector}

theorem selectorText_refused
    (h : ∃ r ∈ s.matchExpressions.getD [], r.operator ∉ selectorOperators) :
    ∃ message, selectorText s = .error (.invalidConfig message) := by
  obtain ⟨operator, hterms⟩ := LabelSelector.terms_of_unknown h
  exact ⟨_, by rw [selectorText, LabelSelector.text, hterms]; rfl⟩

theorem selectorText_read (hs : s.Legal)
    (h : ∀ r ∈ s.matchExpressions.getD [], r.operator ∈ selectorOperators) :
    ∃ text, selectorText s = .ok text ∧ Selector.parse? text = some s.clauses :=
  ⟨_, by rw [selectorText, LabelSelector.text_of_known h]; rfl, Clause.parse?_text hs.legible⟩

theorem selectorText_ok {text : String} (hs : s.Legal) (h : selectorText s = .ok text) :
    Selector.parse? text = some s.clauses := by
  have hknown : ∀ r ∈ s.matchExpressions.getD [], r.operator ∈ selectorOperators := by
    intro r hr
    by_contra hunknown
    obtain ⟨message, herror⟩ := selectorText_refused ⟨r, hr, hunknown⟩
    rw [herror] at h
    cases h
  obtain ⟨_, htext, hparse⟩ := selectorText_read hs hknown
  rw [h, Except.ok.injEq] at htext
  rwa [htext]

/-- A selector is refused for operators that it does not have, and for nothing else. Every other one
has a text from which its requirements are read: the labels by key, then the
expressions in order. -/
theorem selector_text_denotes (h : s.Legal) :
    ((∃ message, selectorText s = .error (.invalidConfig message)) ↔
      ∃ r ∈ s.matchExpressions.getD [], r.operator ∉ selectorOperators) ∧
    ((∀ r ∈ s.matchExpressions.getD [], r.operator ∈ selectorOperators) →
      ∃ text, selectorText s = .ok text ∧ Selector.parse? text = some s.clauses) ∧
    ∀ t : LabelSelector, t.Legal → ∀ text, selectorText s = .ok text → selectorText t = .ok text →
      t.clauses = s.clauses := by
  refine ⟨⟨?_, selectorText_refused⟩, selectorText_read h, ?_⟩
  · rintro ⟨message, herror⟩
    by_contra hall
    push Not at hall
    obtain ⟨text, htext, -⟩ := selectorText_read h hall
    rw [herror] at htext
    cases htext
  · intro t ht text hs htext
    exact Option.some_inj.1 ((selectorText_ok ht htext).symm.trans (selectorText_ok h hs))

/-- A key may be the name of an operator, and a value empty. -/
def mixedSelector : LabelSelector where
  matchLabels := some ((StringMap.empty.insert "example.com/role" "").insert "app" "ignition")
  matchExpressions := some [⟨"in", "NotIn", some ["a", "b-2"]⟩, ⟨"tier", "In", some ["in"]⟩,
    ⟨"notin", "Exists", some ["dropped"]⟩, ⟨"legacy", "DoesNotExist", none⟩]

theorem selector_text_denotes_mixed : mixedSelector.Legal ∧
    ∃ text, selectorText mixedSelector = .ok text ∧ Selector.parse? text = some
      [.equals "app" "ignition", .equals "example.com/role" "", .notIn "in" ["a", "b-2"],
        .isIn "tier" ["in"], .present "notin", .absent "legacy"] :=
  have hlegal : mixedSelector.Legal :=
    ⟨by decide +kernel, by decide +kernel, by decide +kernel⟩
  ⟨hlegal, (selector_text_denotes hlegal).2.1 (by decide)⟩

end MachineProvider
