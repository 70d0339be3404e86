import MachineProvider.Proofs.Jsonnet.PrintedNumbers
import MachineProvider.Proofs.Jsonnet.Printing

/-!
The printed text of a document is JSON again: it is read as the same document, apart from what its
numbers are reread as.
-/
namespace MachineProvider.Jsonnet

open Json.Parser (stringBody unit?)

variable {cs rest : List Char} {c : Char} {k fuel : Nat}

/-! ### Texts -/

/-- The code unit of exactly four digits. -/
def unitOf? : List Char → Option Nat
  | [a, b, c, d] => unit? a b c d
  | _ => none

theorem unitOf_hex4 : ∀ n < 160, unitOf? (Json.hex4 n) = some n := by decide +kernel

theorem exists_digits_of_unitOf {n : Nat} (h : unitOf? cs = some n) :
    ∃ a b c d, cs = [a, b, c, d] ∧ unit? a b c d = some n := by
  unfold unitOf? at h
  split at h
  · exact ⟨_, _, _, _, rfl, h⟩
  · cases h

theorem stringBody_hex4 {out : String} (hc : c.toNat < 160) :
    stringBody out ('\\' :: 'u' :: Json.hex4 c.toNat ++ cs) = stringBody (out.push c) cs := by
  obtain ⟨a, b, d, e, heq, hunit⟩ := exists_digits_of_unitOf (unitOf_hex4 c.toNat hc)
  have hlow : Json.Parser.isLowUnit c.toNat = false := by
    simp only [Json.Parser.isLowUnit, Bool.and_eq_false_iff, decide_eq_false_iff_not]
    omega
  have hhigh : Json.Parser.isHighUnit c.toNat = false := by
    simp only [Json.Parser.isHighUnit, Bool.and_eq_false_iff, decide_eq_false_iff_not]
    omega
  rw [heq]
  change stringBody out ('\\' :: 'u' :: a :: b :: d :: e :: cs) = _
  rw [stringBody, hunit]
  simp only [hlow, hhigh, Bool.false_eq_true, if_false, Char.ofNat_toNat]

theorem stringBody_plain {out : String} (h : c ≠ '"') (h' : c ≠ '\\') (hc : ¬ c.toNat < 32) :
    stringBody out (c :: cs) = stringBody (out.push c) cs := by
  rw [stringBody, if_neg hc]
  all_goals intros; simp_all

/-- A quoted character is read as itself. -/
theorem stringBody_quotedChar (out : String) (c : Char) (cs : List Char) :
    stringBody out (quotedChar c ++ cs) = stringBody (out.push c) cs := by
  unfold quotedChar
  split
  · next hc => exact stringBody_hex4 (by omega)
  · unfold Json.escapeChar
    split
    · next e he =>
      unfold Json.shortEscape? at he
      split at he
      case h_8 => cases he
      all_goals
        obtain rfl := Option.some.inj he
        rfl
    · next he =>
      split
      · next hc => exact stringBody_hex4 (by omega)
      · next hc =>
        refine stringBody_plain ?_ ?_ hc
        · rintro rfl
          cases he
        · rintro rfl
          cases he

theorem stringBody_quoted (s : List Char) (out : String) :
    stringBody out (s.flatMap quotedChar ++ '"' :: rest) = some (out ++ String.ofList s, rest) := by
  induction s generalizing out with
  | nil => simp [stringBody]
  | cons c s ih =>
    rw [List.flatMap_cons, List.append_assoc, stringBody_quotedChar, ih]
    refine congrArg some (Prod.ext (String.toList_inj.1 ?_) rfl)
    simp

theorem quoted_toList (s : String) (rest : List Char) :
    (quoted s).toList ++ rest = '"' :: (s.toList.flatMap quotedChar ++ '"' :: rest) := by
  unfold quoted
  rw [String.toList_ofList]
  simp

/-! ### Documents -/

/-- What a printed number is read as, if it is read. -/
def reread (n : Json.Number) : Json.Number := (reread? n).getD n

/-- Whether the printed numbers of a document are all read. -/
def Readable (v : Json) : Prop := v.EveryNumber fun n => (reread? n).isSome

/-- A part of a document is read as expected when its numbers are, and not at all otherwise. -/
def ReadsBack {α : Type} (readable : Prop) (reading : Option α) (a : α) : Prop :=
  (readable ∧ reading = some a) ∨ (¬ readable ∧ reading = none)

theorem ReadsBack.eq_some {α : Type} {p : Prop} {reading : Option α} {a : α}
    (h : ReadsBack p reading a) (hp : p) : reading = some a :=
  h.elim And.right fun h => absurd hp h.1

theorem ReadsBack.eq_none {α : Type} {p : Prop} {reading : Option α} {a : α}
    (h : ReadsBack p reading a) (hp : ¬ p) : reading = none :=
  h.elim (fun h => absurd h.1 hp) And.right

theorem ReadsBack.of_iff {α : Type} {p q : Prop} {reading : Option α} {a : α}
    (h : ReadsBack p reading a) (hpq : p ↔ q) : ReadsBack q reading a := by
  rcases h with ⟨hp, h⟩ | ⟨hp, h⟩
  · exact .inl ⟨hpq.1 hp, h⟩
  · exact .inr ⟨fun hq => hp (hpq.2 hq), h⟩

theorem ReadsBack.of_eq {α : Type} {p : Prop} {reading reading' : Option α} {a : α}
    (h : ReadsBack p reading a) (heq : reading' = reading) : ReadsBack p reading' a := heq ▸ h

/-- The printed document is read back, whatever closes it. -/
def RereadsValue (v : Json) : Prop :=
  ∀ {fuel k : Nat} {rest : List Char}, 2 * (inlineText v).toList.length < fuel → v.depth ≤ k →
    Closed rest → ReadsBack (Readable v)
      (Json.Parser.value fuel k ((inlineText v).toList ++ rest)) (v.mapNumbers reread, rest)

theorem value_blank (fuel k : Nat) (cs : List Char) :
    Json.Parser.value fuel k (' ' :: cs) = Json.Parser.value fuel k cs := by
  cases fuel with
  | zero => rfl
  | succ fuel =>
    unfold Json.Parser.value
    rfl

theorem elements_blank (fuel k : Nat) (cs : List Char) (acc : List Json) :
    Json.Parser.elements fuel k (' ' :: cs) acc = Json.Parser.elements fuel k cs acc := by
  cases fuel with
  | zero => rfl
  | succ fuel =>
    unfold Json.Parser.elements
    rw [value_blank]

theorem members_blank (fuel k : Nat) (cs : List Char) (acc : List (String × Json)) :
    Json.Parser.members fuel k (' ' :: cs) acc = Json.Parser.members fuel k cs acc := by
  cases fuel with
  | zero => rfl
  | succ fuel =>
    unfold Json.Parser.members
    rfl

/-- The characters of elements or members on one line. -/
def joined (parts : List (List Char)) : List Char := [',', ' '].intercalate parts

theorem joined_cons (part : List Char) (parts : List (List Char)) :
    ∃ cs, joined (part :: parts) = part ++ cs := by
  cases parts with
  | nil => exact ⟨[], List.intercalate_singleton.trans (List.append_nil _).symm⟩
  | cons part' parts =>
    refine ⟨[',', ' '] ++ joined (part' :: parts), ?_⟩
    rw [joined, List.intercalate_cons_cons, List.append_assoc]
    rfl

/-- How a loop over the parts of a list reads the text of one of them: it fails on what is not
readable, stops at the closing bracket and goes on after a comma. -/
structure ReadsPart {β : Type} (loop : Nat → List Char → List β → Option (Json × List Char))
    (close : Char) (make : List β → Json) (text : List Char) (readable : Prop)
    (part : β) : Prop where
  unread {fuel : Nat} {cs : List Char} {acc : List β} (hfuel : 2 * text.length < fuel)
    (hcs : Closed cs) (h : ¬ readable) : loop (fuel + 1) (text ++ cs) acc = none
  last {fuel : Nat} {cs : List Char} {acc : List β} (hfuel : 2 * text.length < fuel)
    (h : readable) :
    loop (fuel + 1) (text ++ close :: cs) acc = some (make (part :: acc).reverse, cs)
  more {fuel : Nat} {cs : List Char} {acc : List β} (hfuel : 2 * text.length < fuel)
    (h : readable) :
    loop (fuel + 1) (text ++ ',' :: ' ' :: cs) acc = loop fuel cs (part :: acc)

theorem closed_comma (cs : List Char) : Closed (',' :: cs) := .of_eq (c := ',') rfl (.inl rfl)

theorem closed_bracket (cs : List Char) : Closed (']' :: cs) :=
  .of_eq (c := ']') rfl (.inr (.inl rfl))

theorem closed_brace (cs : List Char) : Closed ('\x7d' :: cs) :=
  .of_eq (c := '\x7d') rfl (.inr (.inr rfl))

/-- A list is read back when the loop reads each of its parts. -/
theorem joined_reread {α β : Type} {loop : Nat → List Char → List β → Option (Json × List Char)}
    {close : Char} {make : List β → Json} {text : α → List Char} {readable : α → Prop}
    {read : α → β} {parts : List α}
    (hparts : ∀ a ∈ parts, ReadsPart loop close make (text a) (readable a) (read a))
    (hclose : Closed (close :: rest)) (hne : parts ≠ []) (fuel : Nat) (acc : List β)
    (hfuel : 2 * (joined (parts.map text)).length + 2 ≤ fuel) :
    ReadsBack (∀ a ∈ parts, readable a) (loop fuel (joined (parts.map text) ++ close :: rest) acc)
      (make (acc.reverse ++ parts.map read), rest) := by
  -- The parts read so far move to the accumulator, and each costs at least one unit of fuel.
  induction parts generalizing fuel acc with
  | nil => exact absurd rfl hne
  | cons a parts ih =>
    obtain ⟨ha, hlater⟩ := List.forall_mem_cons.1 hparts
    obtain ⟨fuel, rfl⟩ : ∃ f, fuel = f + 1 := ⟨fuel - 1, by omega⟩
    cases parts with
    | nil =>
      have htext : joined ([a].map text) = text a := List.intercalate_singleton
      rw [htext] at hfuel ⊢
      by_cases hread : readable a
      · refine .inl ⟨by simpa using hread, (ha.last (by omega) hread).trans ?_⟩
        rw [List.reverse_cons]
        rfl
      · exact .inr ⟨by simpa using hread, ha.unread (by omega) hclose hread⟩
    | cons b parts =>
      have htext : joined ((a :: b :: parts).map text) =
          text a ++ ',' :: ' ' :: joined ((b :: parts).map text) := by
        rw [joined, List.map_cons, List.map_cons, List.intercalate_cons_cons, List.append_assoc]
        rfl
      rw [htext] at hfuel ⊢
      rw [List.append_assoc]
      simp only [List.length_append, List.length_cons] at hfuel
      by_cases hread : readable a
      · have hrest := ih hlater (List.cons_ne_nil _ _) fuel (read a :: acc) (by omega)
        rw [List.reverse_cons, List.append_assoc] at hrest
        refine (hrest.of_iff ?_).of_eq (ha.more (by omega) hread)
        rw [List.forall_mem_cons (a := a)]
        exact ⟨fun h => ⟨hread, h⟩, fun h => h.2⟩
      · exact .inr ⟨fun h => hread (h a List.mem_cons_self),
          ha.unread (by omega) (closed_comma _) hread⟩

theorem elements_none {acc : List Json} (hvalue : Json.Parser.value fuel k cs = none) :
    Json.Parser.elements (fuel + 1) k cs acc = none := by
  unfold Json.Parser.elements
  rw [hvalue]

theorem elements_more {acc : List Json} {v : Json}
    (hvalue : Json.Parser.value fuel k cs = some (v, ',' :: rest)) :
    Json.Parser.elements (fuel + 1) k cs acc = Json.Parser.elements fuel k rest (v :: acc) := by
  conv => lhs; unfold Json.Parser.elements
  rw [hvalue]
  rfl

theorem elements_last {acc : List Json} {v : Json}
    (hvalue : Json.Parser.value fuel k cs = some (v, ']' :: rest)) :
    Json.Parser.elements (fuel + 1) k cs acc = some (.array (v :: acc).reverse, rest) := by
  unfold Json.Parser.elements
  rw [hvalue]
  rfl

theorem elements_readsPart {e : Json} (he : RereadsValue e) (hk : e.depth ≤ k) :
    ReadsPart (fun fuel => Json.Parser.elements fuel k) ']' .array (inlineText e).toList
      (Readable e) (e.mapNumbers reread) where
  unread hfuel hcs h := elements_none ((he hfuel hk hcs).eq_none h)
  last hfuel h := elements_last ((he hfuel hk (closed_bracket _)).eq_some h)
  more hfuel h :=
    (elements_more ((he hfuel hk (closed_comma _)).eq_some h)).trans (elements_blank ..)

def rereadMember (m : String × Json) : String × Json := (m.1, m.2.mapNumbers reread)

theorem inlineMember_toList (m : String × Json) (cs : List Char) :
    (inlineMember m).toList ++ cs = '"' :: (m.1.toList.flatMap quotedChar ++
      '"' :: ':' :: ' ' :: ((inlineText m.2).toList ++ cs)) := by
  have hcolon : ": ".toList = [':', ' '] := rfl
  rw [inlineMember, String.toList_append, String.toList_append, hcolon, List.append_assoc,
    List.append_assoc, quoted_toList]
  rfl

section
variable {r cs' : List Char} {key : String} {v : Json} {acc : List (String × Json)}

theorem members_none (hname : stringBody "" r = some (key, ':' :: ' ' :: cs))
    (hvalue : Json.Parser.value fuel k cs = none) :
    Json.Parser.members (fuel + 1) k ('"' :: r) acc = none := by
  have hquote : Json.Parser.skipBlanks ('"' :: r) = '"' :: r := rfl
  have hcolon : Json.Parser.skipBlanks (':' :: ' ' :: cs) = ':' :: ' ' :: cs := rfl
  unfold Json.Parser.members
  simp only [hquote, hname, hcolon, value_blank, hvalue]

theorem members_more (hname : stringBody "" r = some (key, ':' :: ' ' :: cs))
    (hvalue : Json.Parser.value fuel k cs = some (v, ',' :: cs')) :
    Json.Parser.members (fuel + 1) k ('"' :: r) acc =
      Json.Parser.members fuel k cs' ((key, v) :: acc) := by
  have hquote : Json.Parser.skipBlanks ('"' :: r) = '"' :: r := rfl
  have hcolon : Json.Parser.skipBlanks (':' :: ' ' :: cs) = ':' :: ' ' :: cs := rfl
  have hcomma : Json.Parser.skipBlanks (',' :: cs') = ',' :: cs' := rfl
  conv => lhs; unfold Json.Parser.members
  simp only [hquote, hname, hcolon, value_blank, hvalue, hcomma]

theorem members_last (hname : stringBody "" r = some (key, ':' :: ' ' :: cs))
    (hvalue : Json.Parser.value fuel k cs = some (v, '\x7d' :: cs')) :
    Json.Parser.members (fuel + 1) k ('"' :: r) acc =
      some (.object ((key, v) :: acc).reverse, cs') := by
  have hquote : Json.Parser.skipBlanks ('"' :: r) = '"' :: r := rfl
  have hcolon : Json.Parser.skipBlanks (':' :: ' ' :: cs) = ':' :: ' ' :: cs := rfl
  have hclose : Json.Parser.skipBlanks ('\x7d' :: cs') = '\x7d' :: cs' := rfl
  unfold Json.Parser.members
  simp only [hquote, hname, hcolon, value_blank, hvalue, hclose]

end

theorem members_readsPart {m : String × Json} (hm : RereadsValue m.2) (hk : m.2.depth ≤ k) :
    ReadsPart (fun fuel => Json.Parser.members fuel k) '\x7d' .object (inlineMember m).toList
      (Readable m.2) (rereadMember m) := by
  have hname : ∀ cs, stringBody "" (m.1.toList.flatMap quotedChar ++ '"' :: cs) =
      some (m.1, cs) := by
    intro cs
    rw [stringBody_quoted, String.empty_append, String.ofList_toList]
  have hlen : (inlineText m.2).toList.length ≤ (inlineMember m).toList.length := by
    rw [inlineMember, String.toList_append, List.length_append]
    omega
  constructor
  case unread =>
    intro fuel cs acc hfuel hcs h
    rw [inlineMember_toList]
    exact members_none (hname _) ((hm (by omega) hk hcs).eq_none h)
  case last =>
    intro fuel cs acc hfuel h
    rw [inlineMember_toList]
    exact members_last (hname _) ((hm (by omega) hk (closed_brace _)).eq_some h)
  case more =>
    intro fuel cs acc hfuel h
    rw [inlineMember_toList]
    have hvalue := (@hm fuel k (',' :: ' ' :: cs) (by omega) hk (closed_comma _)).eq_some h
    exact (members_more (hname _) hvalue).trans (members_blank ..)

theorem enclose_toList {opening closing : String} {parts : List String} (hne : parts ≠ []) :
    (Layout.inline.enclose "" opening closing parts).toList =
      opening.toList ++ (joined (parts.map String.toList) ++ closing.toList) := by
  obtain ⟨part, parts, rfl⟩ := List.exists_cons_of_ne_nil hne
  have hcomma : ", ".toList = [',', ' '] := rfl
  change (opening ++ String.intercalate ", " (part :: parts) ++ closing).toList = _
  rw [String.toList_append, String.toList_append, String.toList_intercalate, hcomma,
    List.append_assoc]
  rfl

theorem array_toList {es : List Json} (hne : es ≠ []) (cs : List Char) :
    (inlineText (.array es)).toList ++ cs =
      '[' :: (joined (es.map fun e => (inlineText e).toList) ++ ']' :: cs) := by
  have hopen : "[".toList = ['['] := rfl
  have hclose : "]".toList = [']'] := rfl
  rw [inlineText_array, enclose_toList (by simpa using hne), hopen, hclose, List.map_map,
    List.append_assoc, List.append_assoc]
  rfl

theorem object_toList {ms : List (String × Json)} (hne : ms ≠ []) (cs : List Char) :
    (inlineText (.object ms)).toList ++ cs =
      '\x7b' :: (joined (ms.map fun m => (inlineMember m).toList) ++ '\x7d' :: cs) := by
  have hopen : "\x7b".toList = ['\x7b'] := rfl
  have hclose : "\x7d".toList = ['\x7d'] := rfl
  rw [inlineText_object, enclose_toList (by simpa using hne), hopen, hclose, List.map_map,
    List.append_assoc, List.append_assoc]
  rfl

/-- A value begins with neither a blank nor a closing bracket. -/
def Begins (cs : List Char) : Prop :=
  ∃ c r, cs = c :: r ∧ Json.Parser.isBlank c = false ∧ c ≠ ']'

theorem begins_number (d : Double) : Begins d.plainText.toList := by
  cases hd : d.isFinite with
  | false =>
    rcases plainText_not_finite hd with h | h | h
    all_goals
      rw [h]
      exact ⟨_, _, rfl, by decide, by decide⟩
  | true =>
    rw [Double.plainText_of_finite (of_decide_eq_true hd)]
    cases d.isNegative with
    | true =>
      rw [if_pos rfl, String.toList_append]
      exact ⟨'-', _, rfl, by decide, by decide⟩
    | false =>
      rw [if_neg Bool.false_ne_true]
      obtain ⟨c, r, hcons, hc⟩ := (plainDigits_plain (Decimal.shortest d)).head
      refine ⟨c, r, hcons, ?_, by rintro rfl; cases hc⟩
      cases hblank : Json.Parser.isBlank c with
      | false => rfl
      | true => rcases blank_cases hblank with rfl | rfl | rfl | rfl <;> cases hc

theorem begins_inlineText (v : Json) (cs : List Char) : Begins ((inlineText v).toList ++ cs) := by
  cases v with
  | null => exact ⟨'n', _, rfl, by decide, by decide⟩
  | bool b => cases b <;> exact ⟨_, _, rfl, by decide, by decide⟩
  | number n =>
    obtain ⟨c, r, hcons, hc⟩ := begins_number n.value
    refine ⟨c, r ++ cs, ?_, hc⟩
    rw [inlineText, hcons, List.cons_append]
  | string s =>
    rw [inlineText, quoted_toList]
    exact ⟨'"', _, rfl, by decide, by decide⟩
  | array es =>
    cases es with
    | nil => exact ⟨'[', _, rfl, by decide, by decide⟩
    | cons e es =>
      rw [array_toList (List.cons_ne_nil _ _)]
      exact ⟨'[', _, rfl, by decide, by decide⟩
  | object ms =>
    cases ms with
    | nil => exact ⟨'\x7b', _, rfl, by decide, by decide⟩
    | cons m ms =>
      rw [object_toList (List.cons_ne_nil _ _)]
      exact ⟨'\x7b', _, rfl, by decide, by decide⟩

theorem value_array (h : Begins cs) :
    Json.Parser.value (fuel + 1) (k + 1) ('[' :: cs) = Json.Parser.elements fuel k cs [] := by
  obtain ⟨c, r, rfl, hblank, hc⟩ := h
  have hskip : Json.Parser.skipBlanks (c :: r) = c :: r := by
    rw [Json.Parser.skipBlanks, List.dropWhile_cons, hblank, if_neg Bool.false_ne_true]
  have hopen : Json.Parser.skipBlanks ('[' :: c :: r) = '[' :: c :: r := rfl
  conv => lhs; unfold Json.Parser.value
  simp only [hopen, hskip]
  split
  · next heq => exact absurd (List.cons.inj heq).1 hc
  · rfl

theorem value_object {r : List Char} :
    Json.Parser.value (fuel + 1) (k + 1) ('\x7b' :: '"' :: r) =
      Json.Parser.members fuel k ('"' :: r) [] := by
  conv => lhs; unfold Json.Parser.value
  rfl

theorem ReadsBack.map {α β : Type} {p : Prop} {reading : Option α} {a : α} (f : α → β)
    (h : ReadsBack p reading a) : ReadsBack p (reading.map f) (f a) := by
  rcases h with ⟨hp, rfl⟩ | ⟨hp, rfl⟩
  · exact .inl ⟨hp, rfl⟩
  · exact .inr ⟨hp, rfl⟩

theorem rereads_number (n : Json.Number) : RereadsValue (.number n) := by
  intro fuel k rest hfuel _ hr
  obtain ⟨fuel, rfl⟩ : ∃ f, fuel = f + 1 := ⟨fuel - 1, by omega⟩
  rw [inlineText, value_number hr]
  cases hn : reread? n with
  | none =>
    refine .inr ⟨fun h => ?_, rfl⟩
    change (reread? n).isSome = true at h
    rw [hn] at h
    cases h
  | some m =>
    refine .inl ⟨?_, ?_⟩
    · change (reread? n).isSome = true
      rw [hn]
      rfl
    · change some (Json.number m, rest) = some (.number ((reread? n).getD n), rest)
      rw [hn]
      rfl

theorem rereads_array {es : List Json} (ih : ∀ e ∈ es, RereadsValue e) :
    RereadsValue (.array es) := by
  intro fuel k rest hfuel hk hr
  obtain ⟨fuel, rfl⟩ : ∃ f, fuel = f + 1 := ⟨fuel - 1, by omega⟩
  obtain ⟨k, rfl⟩ : ∃ l, k = l + 1 :=
    ⟨k - 1, by have : 1 ≤ (Json.array es).depth := Nat.le_add_left 1 _; omega⟩
  rw [Json.depth_array_le] at hk
  have hreadable : (∀ e ∈ es, Readable e) ↔ Readable (.array es) := Json.everyNumber_array.symm
  by_cases hne : es = []
  · subst hne
    refine .inl ⟨hreadable.1 nofun, ?_⟩
    unfold Json.Parser.value
    rfl
  · rw [← List.append_nil (inlineText (.array es)).toList, array_toList hne] at hfuel
    simp only [List.length_cons, List.length_append] at hfuel
    have hbegins : Begins (joined (es.map fun e => (inlineText e).toList) ++ ']' :: rest) := by
      obtain ⟨e, es, rfl⟩ := List.exists_cons_of_ne_nil hne
      obtain ⟨cs, hcs⟩ := joined_cons (inlineText e).toList (es.map fun e => (inlineText e).toList)
      rw [List.map_cons, hcs, List.append_assoc]
      exact begins_inlineText e _
    rw [array_toList hne, value_array hbegins, Json.mapNumbers_array]
    have hparts := fun e he => elements_readsPart (ih e he) (hk e he)
    exact (joined_reread hparts (closed_bracket rest) hne _ [] (by omega)).of_iff hreadable

theorem rereads_object {ms : List (String × Json)} (ih : ∀ m ∈ ms, RereadsValue m.2) :
    RereadsValue (.object ms) := by
  intro fuel k rest hfuel hk hr
  obtain ⟨fuel, rfl⟩ : ∃ f, fuel = f + 1 := ⟨fuel - 1, by omega⟩
  obtain ⟨k, rfl⟩ : ∃ l, k = l + 1 :=
    ⟨k - 1, by have : 1 ≤ (Json.object ms).depth := Nat.le_add_left 1 _; omega⟩
  rw [Json.depth_object_le] at hk
  have hreadable : (∀ m ∈ ms, Readable m.2) ↔ Readable (.object ms) := Json.everyNumber_object.symm
  by_cases hne : ms = []
  · subst hne
    refine .inl ⟨hreadable.1 nofun, ?_⟩
    unfold Json.Parser.value
    rfl
  · rw [← List.append_nil (inlineText (.object ms)).toList, object_toList hne] at hfuel
    simp only [List.length_cons, List.length_append] at hfuel
    rw [object_toList hne, Json.mapNumbers_object]
    have hquote : ∃ r,
        joined (ms.map fun m => (inlineMember m).toList) ++ '\x7d' :: rest = '"' :: r := by
      obtain ⟨m, ms, rfl⟩ := List.exists_cons_of_ne_nil hne
      obtain ⟨cs, hcs⟩ :=
        joined_cons (inlineMember m).toList (ms.map fun m => (inlineMember m).toList)
      rw [List.map_cons, hcs, List.append_assoc, inlineMember_toList]
      exact ⟨_, rfl⟩
    have hparts := fun m hm => members_readsPart (ih m hm) (hk m hm)
    have hmembers := joined_reread hparts (closed_brace rest) hne fuel [] (by omega)
    obtain ⟨r, hr⟩ := hquote
    rw [hr] at hmembers ⊢
    rw [value_object]
    exact hmembers.of_iff hreadable

/-- Every printed document is read back. -/
theorem rereads (v : Json) : RereadsValue v := by
  induction v using Json.inductionOn with
  | null =>
    intro fuel k rest hfuel _ _
    obtain ⟨fuel, rfl⟩ : ∃ f, fuel = f + 1 := ⟨fuel - 1, by omega⟩
    unfold Json.Parser.value
    exact .inl ⟨trivial, rfl⟩
  | bool b =>
    intro fuel k rest hfuel _ _
    obtain ⟨fuel, rfl⟩ : ∃ f, fuel = f + 1 := ⟨fuel - 1, by omega⟩
    unfold Json.Parser.value
    cases b <;> exact .inl ⟨trivial, rfl⟩
  | number n => exact rereads_number n
  | string s =>
    intro fuel k rest hfuel _ hr
    obtain ⟨fuel, rfl⟩ : ∃ f, fuel = f + 1 := ⟨fuel - 1, by omega⟩
    have hvalue : ∀ cs, Json.Parser.value (fuel + 1) k ('"' :: cs) =
        (stringBody "" cs).map fun r => (.string r.1, r.2) := by
      intro cs
      unfold Json.Parser.value
      rfl
    refine .inl ⟨trivial, ?_⟩
    rw [inlineText, quoted_toList, hvalue, stringBody_quoted, String.empty_append,
      String.ofList_toList]
    rfl
  | array es ih => exact rereads_array ih
  | object ms ih => exact rereads_object ih

end MachineProvider.Jsonnet
