import MachineProvider.Json.Parser
import MachineProvider.Proofs.Jsonnet.Combinators

/-!
The JSON texts that a template may quote: templates know no escaped slash and no code unit of a
pair, every digit run outside of a text must fit 64 bits, and not every number is kept.
-/
namespace MachineProvider.Jsonnet

open Json.Parser (unit? isHighUnit isLowUnit stringBody escape?)

mutual
/-- Whether a JSON text passes, from outside of its texts, with a check of what follows wherever
there is a digit. -/
def passes (check : List Char → Bool) : List Char → Bool
  | [] => true
  | '"' :: rest => passesText check rest
  | c :: rest => if isDigit c then check (c :: rest) && passes check rest else passes check rest

/-- Whether a JSON text passes, from within one of its texts. -/
def passesText (check : List Char → Bool) : List Char → Bool
  | [] => true
  | '"' :: rest => passes check rest
  | '\\' :: '/' :: _ => false
  | '\\' :: 'u' :: a :: b :: c :: d :: rest =>
    !(unit? a b c d).any isHighUnit && passesText check rest
  | '\\' :: _ :: rest => passesText check rest
  | _ :: rest => passesText check rest
end

/-- Whether the digits in front fit 64 bits. -/
def fits (cs : List Char) : Bool := decimal (cs.takeWhile isDigit) < 0x10000000000000000

/-- Whether no exponent follows. -/
def unscaled (tail : List Char) : Bool := tail.head? != some 'e' && tail.head? != some 'E'

/-- Whether the number in front is kept: an integer of up to fifty-three bits, or a fraction of few
digits that is no integer. None has an exponent. -/
def brief (cs : List Char) : Bool :=
  let whole := cs.takeWhile isDigit
  match cs.dropWhile isDigit with
  | '.' :: rest =>
    let fraction := rest.takeWhile isDigit
    decimal (whole ++ fraction) < Double.implicitBit && decimal fraction != 0 &&
      fraction.length ≤ 21 && unscaled (rest.dropWhile isDigit)
  | tail => decimal whole ≤ Nat.pow 2 53 && unscaled tail

/-- Whether templates can read a JSON text. -/
def legible (cs : List Char) : Bool := passes fits cs

/-- Whether templates can read a JSON text and keep all its numbers. -/
def modest (cs : List Char) : Bool := passes brief cs

variable {cs rest raw piece t : List Char} {a b c d : Char} {n : Nat} {fit fit' : Bool}

/-- A check that asks for more lets fewer texts pass. -/
theorem passes_mono {p q : List Char → Bool} (h : ∀ cs, p cs = true → q cs = true) :
    passes p cs = true → passes q cs = true := by
  refine passes.induct (fun cs => passes p cs = true → passes q cs = true)
    (fun cs => passesText p cs = true → passesText q cs = true) ?_ ?_ ?_ ?_ ?_ ?_ ?_ ?_ ?_ ?_ cs
  · exact fun _ => rfl
  · exact fun rest ih => ih
  · intro c rest hc hdigit ih
    rw [passes.eq_3 p c rest hc, passes.eq_3 q c rest hc, if_pos hdigit, if_pos hdigit,
      Bool.and_eq_true, Bool.and_eq_true]
    exact And.imp (h _) ih
  · intro c rest hc hdigit ih
    rw [passes.eq_3 p c rest hc, passes.eq_3 q c rest hc, if_neg hdigit, if_neg hdigit]
    exact ih
  · exact fun _ => rfl
  · exact fun rest ih => ih
  · exact fun rest h => h
  · intro a b c d rest ih
    rw [passesText, passesText, Bool.and_eq_true, Bool.and_eq_true]
    exact And.imp_right ih
  · intro c rest hslash hunit ih
    rw [passesText.eq_5 p c rest hslash hunit, passesText.eq_5 q c rest hslash hunit]
    exact ih
  · intro c rest hquote hslash hunit hescape ih
    rw [passesText.eq_6 p c rest hquote hslash hunit hescape,
      passesText.eq_6 q c rest hquote hslash hunit hescape]
    exact ih

/-! ### Quoted texts -/

/-- The body of a quoted text and what it is read as, if it is fit. -/
structure Quoted (cs t rest : List Char) (fit : Bool) : Prop where
  ends : ∃ raw, (∀ out, upToQuote '"' out cs = some (out.reverse ++ raw, rest)) ∧
    ∀ out, unescape out raw = if fit then some (out.reverse ++ t) else none
  passes_eq : ∀ check, passesText check cs = (fit && passes check rest)
  shorter : rest.length < cs.length

theorem Quoted.text (h : Quoted cs t rest fit) :
    text ('"' :: cs) = .of fit (String.ofList t) rest := by
  obtain ⟨⟨raw, hraw, hunescape⟩, -, -⟩ := h
  change escaped (upToQuote '"' [] cs) = _
  rw [hraw, List.reverse_nil, List.nil_append]
  have hword := hunescape []
  cases fit <;> simp only [escaped, hword] <;> rfl

/-- How a piece of a text that stands for one character is read. -/
structure Piece (piece : List Char) (c : Char) (fit : Bool) : Prop where
  passed : ∀ out cs, upToQuote '"' out (piece ++ cs) = upToQuote '"' (piece.reverse ++ out) cs
  stands : ∀ out raw, unescape out (piece ++ raw) = if fit then unescape (c :: out) raw else none
  passes_eq : ∀ check cs, passesText check (piece ++ cs) = (fit && passesText check cs)

theorem Quoted.nil : Quoted ('"' :: rest) [] rest true where
  ends := ⟨[], fun _ => by rw [upToQuote, if_pos rfl, List.append_nil]; simp,
    fun _ => by rw [unescape, List.append_nil]; rfl⟩
  passes_eq _ := by rw [passesText, Bool.true_and]
  shorter := Nat.lt_succ_self _

theorem Quoted.cons (h : Quoted cs t rest fit) (hp : Piece piece c fit') :
    Quoted (piece ++ cs) (c :: t) rest (fit' && fit) := by
  obtain ⟨⟨raw, hraw, hunescape⟩, hpasses, hshorter⟩ := h
  refine ⟨⟨piece ++ raw, fun out => ?_, fun out => ?_⟩, fun check => ?_, ?_⟩
  · rw [hp.passed, hraw, List.reverse_append, List.reverse_reverse, List.append_assoc]
  · rw [hp.stands]
    cases fit' with
    | false => rfl
    | true => rw [if_pos rfl, hunescape, List.reverse_cons, List.append_assoc]; rfl
  · rw [hp.passes_eq, hpasses, Bool.and_assoc]
  · rw [List.length_append]
    omega

theorem upToQuote_plain (h : c ≠ '"') (h' : c ≠ '\\') (out : List Char) :
    upToQuote '"' out (c :: cs) = upToQuote '"' (c :: out) cs := by
  rw [upToQuote, if_neg h]
  exact fun _ _ h => absurd h h'

theorem Piece.plain (h : c ≠ '"') (h' : c ≠ '\\') : Piece [c] c true where
  passed out cs := upToQuote_plain h h' out
  stands out raw := by
    rw [List.singleton_append, unescape, if_pos rfl]
    all_goals intros; simp_all
  passes_eq check cs := by
    rw [List.singleton_append, passesText, Bool.true_and]
    all_goals intros; simp_all

/-- A backslash and a character that is taken with it. -/
theorem upToQuote_escape (out : List Char) :
    upToQuote '"' out ('\\' :: c :: cs) = upToQuote '"' (c :: '\\' :: out) cs := by
  rw [upToQuote]
  split
  · rfl
  · next h => exact upToQuote_plain (fun hc => h (.inl hc)) (fun hc => h (.inr hc)) _

theorem unescape_short (h : shortEscape? a = some b) (hx : a ≠ 'x') (hu : a ≠ 'u')
    (out : List Char) : unescape out ('\\' :: a :: raw) = unescape (b :: out) raw := by
  rcases raw with _ | ⟨d, _ | ⟨e, raw⟩⟩
  · rw [unescape.eq_5 _ _ _ _ h]
    all_goals intros; simp_all
  · rw [unescape.eq_5 _ _ _ _ h]
    all_goals intros; simp_all
  · rw [unescape.eq_4, h]
    all_goals intros; simp_all

theorem Piece.short (h : shortEscape? a = some b) (hx : a ≠ 'x') (hu : a ≠ 'u') (hs : a ≠ '/') :
    Piece ['\\', a] b true where
  passed out cs := upToQuote_escape out
  stands out raw := unescape_short h hx hu out
  passes_eq check cs := by
    change passesText check ('\\' :: a :: cs) = _
    rw [passesText, Bool.true_and]
    · exact hs
    · exact fun _ _ _ _ _ h => absurd h hu

theorem Piece.slash : Piece ['\\', '/'] '/' false where
  passed out cs := upToQuote_escape out
  stands out raw := by
    rcases raw with _ | ⟨d, _ | ⟨e, raw⟩⟩ <;> rfl
  passes_eq check cs := by
    change passesText check ('\\' :: '/' :: cs) = _
    rw [passesText, Bool.false_and]

/-! ### Escapes of code units -/

theorem hexDigit_spec (h : hexDigit? c = some n) :
    n < 16 ∧ c ≠ '+' ∧ c ≠ '"' ∧ c ≠ '\\' := by
  refine ⟨?_, (by rintro rfl; cases h), (by rintro rfl; cases h), (by rintro rfl; cases h)⟩
  unfold hexDigit? at h
  simp only [Char.le_def, UInt32.le_iff_toNat_le] at h
  split at h
  · next hc =>
    obtain rfl := Option.some.inj h
    change c.val.toNat - 48 < 16
    have : ('9' : Char).val.toNat = 57 := rfl
    omega
  · split at h
    · next hc =>
      obtain rfl := Option.some.inj h
      change c.val.toNat - 87 < 16
      have : ('f' : Char).val.toNat = 102 := rfl
      omega
    · split at h
      · next hc =>
        obtain rfl := Option.some.inj h
        change c.val.toNat - 55 < 16
        have : ('F' : Char).val.toNat = 70 := rfl
        omega
      · cases h

/-- The four digits of a code unit. -/
theorem unit_spec (h : unit? a b c d = some n) :
    radix? 16 [a, b, c, d] = some n ∧ n < 0x10000 ∧
      ∀ e ∈ [a, b, c, d], e ≠ '"' ∧ e ≠ '\\' := by
  change ((hexDigit? a).bind fun a => (hexDigit? b).bind fun b => (hexDigit? c).bind fun c =>
    (hexDigit? d).bind fun d => some ((a * 16 + b) * 256 + (c * 16 + d))) = some n at h
  obtain ⟨na, ha, h⟩ := Option.bind_eq_some_iff.1 h
  obtain ⟨nb, hb, h⟩ := Option.bind_eq_some_iff.1 h
  obtain ⟨nc, hc, h⟩ := Option.bind_eq_some_iff.1 h
  obtain ⟨nd, hd, h⟩ := Option.bind_eq_some_iff.1 h
  obtain rfl := Option.some.inj h
  have sa := hexDigit_spec ha
  have sb := hexDigit_spec hb
  have sc := hexDigit_spec hc
  have sd := hexDigit_spec hd
  refine ⟨?_, by omega, by simp [sa, sb, sc, sd]⟩
  unfold radix?
  split
  · next heq => exact absurd (List.cons.inj heq).1 sa.2.1
  · simp only [List.foldlM, ha, hb, hc, hd, Option.bind_eq_bind, Option.bind_some, sa.1, sb.1, sc.1,
      sd.1, if_true]
    refine congrArg some ?_
    omega

theorem upToQuote_unit (h : ∀ e ∈ [a, b, c, d], e ≠ '"' ∧ e ≠ '\\') (out : List Char) :
    upToQuote '"' out ('\\' :: 'u' :: a :: b :: c :: d :: cs) =
      upToQuote '"' (d :: c :: b :: a :: 'u' :: '\\' :: out) cs := by
  simp only [List.forall_mem_cons] at h
  obtain ⟨ha, hb, hc, hd, -⟩ := h
  rw [upToQuote_escape, upToQuote_plain ha.1 ha.2, upToQuote_plain hb.1 hb.2,
    upToQuote_plain hc.1 hc.2, upToQuote_plain hd.1 hd.2]

theorem unescape_unit (h : radix? 16 [a, b, c, d] = some n) (out : List Char) :
    unescape out ('\\' :: 'u' :: a :: b :: c :: d :: raw) =
      (charOf? n).bind fun e => unescape (e :: out) raw := by
  rw [unescape, h]
  rfl

theorem Piece.unit (h : unit? a b c d = some n) (hlow : isLowUnit n = false)
    (hhigh : isHighUnit n = false) :
    Piece ['\\', 'u', a, b, c, d] (Char.ofNat n) true := by
  obtain ⟨hradix, hlt, hplain⟩ := unit_spec h
  have hvalid : n.isValidChar := by
    simp only [isLowUnit, isHighUnit, Bool.and_eq_false_iff, decide_eq_false_iff_not] at hlow hhigh
    unfold Nat.isValidChar
    omega
  refine ⟨fun out cs => upToQuote_unit hplain out, fun out raw => ?_, fun check cs => ?_⟩
  · refine (unescape_unit hradix out).trans ?_
    rw [charOf?, if_pos hvalid]
    rfl
  · change passesText check ('\\' :: 'u' :: a :: b :: c :: d :: cs) = _
    rw [passesText, h, Option.any_some, hhigh]
    rfl

theorem Piece.pair {e f g h : Char} {m : Nat} (hn : unit? a b c d = some n)
    (hhigh : isHighUnit n = true) (hm : unit? e f g h = some m) (k : Char) :
    Piece ['\\', 'u', a, b, c, d, '\\', 'u', e, f, g, h] k false := by
  obtain ⟨hradix, -, hplain⟩ := unit_spec hn
  have hinvalid : ¬ n.isValidChar := by
    simp only [isHighUnit, Bool.and_eq_true, decide_eq_true_eq] at hhigh
    unfold Nat.isValidChar
    omega
  refine ⟨fun out cs => ?_, fun out raw => ?_, fun check cs => ?_⟩
  · exact (upToQuote_unit hplain out).trans (upToQuote_unit (unit_spec hm).2.2 _)
  · refine (unescape_unit hradix out).trans ?_
    rw [charOf?, if_neg hinvalid]
    rfl
  · change passesText check
      ('\\' :: 'u' :: a :: b :: c :: d :: '\\' :: 'u' :: e :: f :: g :: h :: cs) = _
    rw [passesText, hn, Option.any_some, hhigh]
    rfl

/-! ### Texts that documents hold -/

theorem Piece.escape (h : escape? a = some b) : ∃ fit, Piece ['\\', a] b fit := by
  unfold escape? at h
  split at h
  case h_3 =>
    obtain rfl := Option.some.inj h
    exact ⟨false, .slash⟩
  case h_9 => cases h
  all_goals
    obtain rfl := Option.some.inj h
    exact ⟨true, .short rfl (by decide) (by decide) (by decide)⟩

/-- A character more in front. -/
theorem Quoted.push {out s : String} (hp : Piece piece c fit')
    (h : ∃ t fit, s = out.push c ++ String.ofList t ∧ Quoted cs t rest fit) :
    ∃ t fit, s = out ++ String.ofList t ∧ Quoted (piece ++ cs) t rest fit := by
  obtain ⟨t, fit, rfl, ht⟩ := h
  refine ⟨c :: t, fit' && fit, ?_, ht.cons hp⟩
  apply String.toList_inj.1
  simp

/-- The text that a document holds is quoted so that templates can tell where it ends. -/
theorem quoted_of_stringBody {out s : String} (h : stringBody out cs = some (s, rest)) :
    ∃ t fit, s = out ++ String.ofList t ∧ Quoted cs t rest fit := by
  fun_induction stringBody out cs with
  | case1 out rest' =>
    obtain ⟨rfl, rfl⟩ := Prod.mk.inj (Option.some.inj h)
    exact ⟨[], true, by simp, .nil⟩
  | case2 | case3 | case5 | case6 | case7 | case10 | case11 | case13 => cases h
  | case4 out a b c d n hn hlow hhigh e f g k rest' m hm hm' ih =>
    exact Quoted.push (.pair hn hhigh hm _) (ih h)
  | case8 out a b c d rest' n hn hlow hhigh ih =>
    exact Quoted.push (.unit hn (by simpa using hlow) (by simpa using hhigh)) (ih h)
  | case9 out a rest' _ b hb ih =>
    obtain ⟨fit, hp⟩ := Piece.escape hb
    exact Quoted.push hp (ih h)
  | case12 out c rest' hquote _ hslash _ ih =>
    have hc : c ≠ '\\' := by
      rintro rfl
      cases rest' with
      | nil => cases h
      | cons d rest' => exact hslash d rest' rfl rfl
    exact Quoted.push (.plain hquote hc) (ih h)

end MachineProvider.Jsonnet
