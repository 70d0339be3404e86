import MachineProvider.Proofs.Decimal.Integers
import MachineProvider.Proofs.Json.Shape
import MachineProvider.Proofs.Jsonnet.Words

/-! The numbers of a JSON text, read as numbers of a template. -/
namespace MachineProvider.Jsonnet

open Json.Parser (digits? digitsOf natOf absorb number? exponent? unsigned?)

variable {cs ds rest : List Char} {c : Char} {negative : Bool} {n : Json.Number}

/-- One past the greatest number that a run of digits may write. -/
def digitLimit : Nat := 0x10000000000000000

/-! ### Runs of digits -/

theorem decimal_foldl (ds : List Char) (n : Nat) :
    ds.foldl (fun n c => n * 10 + (c.toNat - 48)) n = n * Nat.pow 10 ds.length + decimal ds := by
  induction ds generalizing n with
  | nil => exact (Nat.mul_one n).symm
  | cons d ds ih =>
    have hpow : Nat.pow 10 (d :: ds).length = 10 * Nat.pow 10 ds.length := Nat.mul_comm ..
    calc (d :: ds).foldl _ n = (n * 10 + (d.toNat - 48)) * Nat.pow 10 ds.length + decimal ds := ih _
      _ = n * Nat.pow 10 (d :: ds).length +
          ((0 * 10 + (d.toNat - 48)) * Nat.pow 10 ds.length + decimal ds) := by
        rw [hpow, Nat.add_mul, Nat.mul_assoc, Nat.add_assoc, Nat.zero_mul, Nat.zero_add]
      _ = n * Nat.pow 10 (d :: ds).length + decimal (d :: ds) := congrArg (_ + ·) (ih _).symm

theorem decimal_append (ds fs : List Char) :
    decimal (ds ++ fs) = decimal ds * Nat.pow 10 fs.length + decimal fs :=
  List.foldl_append.trans (decimal_foldl fs _)

theorem decimal_le_cons (c : Char) (ds : List Char) : decimal ds ≤ decimal (c :: ds) := by
  rw [← List.singleton_append, decimal_append]
  exact Nat.le_add_left ..

theorem decimal_le_append (ds fs : List Char) : decimal ds ≤ decimal (ds ++ fs) := by
  rw [decimal_append]
  exact Nat.le_trans (Nat.le_mul_of_pos_right _ (Nat.pow_pos (by decide))) (Nat.le_add_right ..)

theorem natOf_digitsOf (ds : List Char) : natOf (digitsOf ds) = decimal ds := List.foldl_map

theorem legible_digits (cs : List Char) :
    legible cs = (decide (decimal (cs.takeWhile isDigit) < digitLimit) &&
      legible (cs.dropWhile isDigit)) := by
  unfold legible
  induction cs with
  | nil => rfl
  | cons c cs ih =>
    by_cases hc : isDigit c = true
    · have hquote : c ≠ '"' := by rintro rfl; cases hc
      have hle := decimal_le_cons c (cs.takeWhile isDigit)
      have hfits : fits (c :: cs) = decide (decimal (c :: cs.takeWhile isDigit) < digitLimit) := by
        rw [fits, List.takeWhile_cons, if_pos hc]
        rfl
      rw [passes.eq_3 fits c cs hquote, if_pos hc, ih, List.dropWhile_cons, if_pos hc,
        List.takeWhile_cons, if_pos hc, hfits, ← Bool.and_assoc, ← Bool.decide_and]
      congr 2
      exact propext ⟨fun h => h.1, fun h => ⟨h, Nat.lt_of_le_of_lt hle h⟩⟩
    · rw [List.takeWhile_cons, List.dropWhile_cons, if_neg hc, if_neg hc]
      rfl

/-- What holds of each of the ten digits holds of every digit. -/
@[elab_as_elim] theorem digit_cases {motive : Char → Prop} (h : isDigit c = true)
    (hall : motive '0' ∧ motive '1' ∧ motive '2' ∧ motive '3' ∧ motive '4' ∧ motive '5' ∧
      motive '6' ∧ motive '7' ∧ motive '8' ∧ motive '9') : motive c := by
  simp only [isDigit, Bool.and_eq_true, decide_eq_true_eq, Char.le_def, UInt32.le_iff_toNat_le] at h
  have hdigits : ∀ n ∈ List.range' 48 10, Char.ofNat n ∈
      ['0', '1', '2', '3', '4', '5', '6', '7', '8', '9'] := by decide
  have hmem := hdigits c.toNat (List.mem_range'_1.2 ⟨h.1, Nat.lt_succ_of_le h.2⟩)
  rw [Char.ofNat_toNat] at hmem
  refine List.forall_mem_cons.2 ?_ c hmem
  simpa only [List.forall_mem_cons, List.not_mem_nil, false_implies, implies_true,
    and_true] using hall

/-- A run of digits and what stands behind it. -/
theorem digits_of {whole : List Nat} (h : digits? cs = some (whole, rest)) :
    cs.takeWhile isDigit ≠ [] ∧ whole = digitsOf (cs.takeWhile isDigit) ∧
      rest = cs.dropWhile isDigit ∧
      digits cs = .of (decide (decimal (cs.takeWhile isDigit) < digitLimit))
        (cs.takeWhile isDigit) rest ∧
      legible cs = (decide (decimal (cs.takeWhile isDigit) < digitLimit) && legible rest) ∧
      rest.length < cs.length := by
  unfold digits? at h
  split at h
  · cases h
  · next hne =>
    obtain ⟨rfl, rfl⟩ := Prod.mk.inj (Option.some.inj h)
    have hsplit : cs.takeWhile isDigit ++ cs.dropWhile isDigit = cs :=
      List.takeWhile_append_dropWhile
    have hpos := List.length_pos_iff.2 hne
    refine ⟨hne, rfl, rfl, ?_, legible_digits cs, ?_⟩
    · unfold digits
      split
      · next hnil => exact absurd hnil hne
      · rw [Reading.of_decide]
        rfl
    · have := congrArg List.length hsplit
      rw [List.length_append] at this
      change 0 < (cs.takeWhile isDigit).length at hpos
      change (cs.dropWhile isDigit).length < _
      omega

/-! ### What a number is read as -/

theorem absorb_eq {significand : Nat} {whole : List Nat} {m : Nat}
    (h : absorb significand whole = (m, [])) (hs : significand < digitLimit) :
    m = whole.foldl (fun n d => n * 10 + d) significand ∧ m < digitLimit := by
  induction whole generalizing significand with
  | nil =>
    obtain rfl := (Prod.mk.inj h).1
    exact ⟨rfl, hs⟩
  | cons d whole ih =>
    unfold absorb at h
    split at h
    · next hlt => exact ih h hlt
    · cases (Prod.mk.inj h).2

/-- A number is a double, or the integer that its digits write. -/
theorem number_cases {whole fraction : List Nat} {exponent : Option (Bool × List Nat)}
    {isInteger : Bool} (h : number? negative whole fraction exponent isInteger = some n) :
    (∃ d, n = .double d) ∨ isInteger = true ∧ natOf whole < digitLimit ∧
      n = .integer (if negative then -(natOf whole : Int) else natOf whole) ∧
      (negative = true → natOf whole ≠ 0) := by
  have hdouble : ∀ (o : Option Double), o.map (Json.Parser.signed negative) = some n →
      ∃ d, n = .double d := by
    intro o ho
    obtain ⟨x, -, rfl⟩ := Option.map_eq_some_iff.1 ho
    exact ⟨_, rfl⟩
  unfold number? at h
  cases ha : absorb 0 whole with
  | mk m beyond =>
    simp only [ha] at h
    split at h
    · next hint =>
      obtain ⟨hint, hbeyond⟩ := Bool.and_eq_true_iff.1 hint
      rw [List.isEmpty_iff.1 hbeyond] at ha
      obtain ⟨hm, hlt⟩ := absorb_eq ha (by decide)
      change m = natOf whole at hm
      subst hm
      split at h
      · next hneg =>
        obtain rfl := Option.some.inj h
        rw [Bool.not_eq_true'] at hneg
        exact .inr ⟨hint, hlt, by rw [hneg]; rfl, by rw [hneg]; exact nofun⟩
      · split at h
        · exact .inl ⟨_, (Option.some.inj h).symm⟩
        · next hneg hzero =>
          obtain rfl := Option.some.inj h
          rw [Bool.not_eq_true', Bool.not_eq_false] at hneg
          exact .inr ⟨hint, hlt, by rw [hneg]; rfl, fun _ hz => hzero (.inl hz)⟩
    · left
      split at h
      · exact hdouble _ h
      · split at h
        · exact hdouble _ h
        · split at h
          · cases h
          · exact ⟨_, (Option.some.inj h).symm⟩

/-- What follows the digits of a number: an exponent, or nothing. -/
def Scaled (negative : Bool) (whole fraction : List Nat) (pointed : Bool) (tail : List Char)
    (n : Json.Number) (rest : List Char) : Prop :=
  (∃ c r down ds, (c = 'e' ∨ c = 'E') ∧ tail = c :: r ∧ exponent? r = some (down, ds, rest) ∧
    number? negative whole fraction (some (down, ds)) false = some n) ∨
  tail = rest ∧ number? negative whole fraction none (!pointed) = some n

theorem Scaled.of_exponent {whole fraction : List Nat} {pointed : Bool} {c : Char} {r : List Char}
    (hc : c = 'e' ∨ c = 'E')
    (h : ((exponent? r).bind fun e =>
      (number? negative whole fraction (some (e.1, e.2.1)) false).bind fun n =>
        some (n, e.2.2)) = some (n, rest)) :
    Scaled negative whole fraction pointed (c :: r) n rest := by
  obtain ⟨⟨down, ds, rest'⟩, he, h⟩ := Option.bind_eq_some_iff.1 h
  obtain ⟨m, hm, h⟩ := Option.bind_eq_some_iff.1 h
  obtain ⟨rfl, rfl⟩ := Prod.mk.inj (Option.some.inj h)
  exact .inl ⟨c, r, down, ds, hc, rfl, he, hm⟩

theorem Scaled.of_plain {whole fraction : List Nat} {pointed : Bool} {tail : List Char}
    (h : ((number? negative whole fraction none (!pointed)).bind fun n => some (n, tail)) =
      some (n, rest)) : Scaled negative whole fraction pointed tail n rest := by
  obtain ⟨m, hm, h⟩ := Option.bind_eq_some_iff.1 h
  obtain ⟨rfl, rfl⟩ := Prod.mk.inj (Option.some.inj h)
  exact .inr ⟨rfl, hm⟩

/-- A number begins with digits; behind a point there are more. -/
theorem unsigned_cases (h : unsigned? negative cs = some (n, rest)) :
    ∃ whole point, digits? cs = some (whole, point) ∧
      ((∃ r fraction tail, point = '.' :: r ∧ digits? r = some (fraction, tail) ∧
          Scaled negative whole fraction true tail n rest) ∨
        (∀ r, point ≠ '.' :: r) ∧ Scaled negative whole [] false point n rest) := by
  unfold unsigned? at h
  obtain ⟨⟨whole, point⟩, hwhole, h⟩ := Option.bind_eq_some_iff.1 h
  refine ⟨whole, point, hwhole, ?_⟩
  dsimp only at h
  split at h
  · cases h
  · split at h
    · next r =>
      obtain ⟨⟨fraction, tail⟩, hfraction, h⟩ := Option.bind_eq_some_iff.1 h
      refine .inl ⟨r, fraction, tail, rfl, hfraction, ?_⟩
      simp only [Option.bind_eq_bind, Option.bind_some] at h
      split at h
      · exact .of_exponent (.inl rfl) h
      · exact .of_exponent (.inr rfl) h
      · exact .of_plain h
    · next hpoint =>
      refine .inr ⟨fun r hr => hpoint r hr, ?_⟩
      simp only [Option.bind_eq_bind, Option.bind_some] at h
      split at h
      · exact .of_exponent (.inl rfl) h
      · exact .of_exponent (.inr rfl) h
      · exact .of_plain h

/-! ### How a template reads it -/

theorem exactly_ne {text : String} {a : Char} (ht : text.toList = [a]) (h : c ≠ a) :
    Parser.exactly text (c :: cs) = .absent := by
  unfold Parser.exactly
  rw [ht, Parser.dropText, if_neg (Ne.symm h)]

theorem digits_head {whole : List Nat} (h : digits? cs = some (whole, rest)) :
    ∃ d r, cs = d :: r ∧ isDigit d = true := by
  cases cs with
  | nil => cases h
  | cons d r =>
    refine ⟨d, r, rfl, ?_⟩
    by_cases hd : isDigit d = true
    · exact hd
    · have hd' : ¬ Json.Parser.isDigit d = true := hd
      unfold digits? at h
      rw [List.takeWhile_cons, if_neg hd'] at h
      cases h

/-- The sign of an exponent, and the digits behind it. -/
theorem exponent_sign {down : Bool} {es : List Nat} (h : exponent? cs = some (down, es, rest)) :
    ∃ r, ((do Parser.exactly "-"; return true) <|> (do Parser.exactly "+"; return false) <|>
        pure false : Parser Bool) cs = .found down r ∧
      digits? r = some (es, rest) ∧ legible cs = legible r ∧ r.length ≤ cs.length := by
  unfold exponent? at h
  split at h
  · next r =>
    obtain ⟨⟨es', rest'⟩, he, h⟩ := Option.map_eq_some_iff.1 h
    cases h
    exact ⟨r, rfl, he, rfl, Nat.le_succ _⟩
  · next r =>
    obtain ⟨⟨es', rest'⟩, he, h⟩ := Option.map_eq_some_iff.1 h
    cases h
    exact ⟨r, rfl, he, rfl, Nat.le_succ _⟩
  · obtain ⟨⟨es', rest'⟩, he, h⟩ := Option.map_eq_some_iff.1 h
    cases h
    obtain ⟨d, r, rfl, hd⟩ := digits_head he
    refine ⟨d :: r, ?_, he, rfl, Nat.le_refl _⟩
    have hminus : d ≠ '-' := by rintro rfl; cases hd
    have hplus : d ≠ '+' := by rintro rfl; cases hd
    refine (Parser.orElse_absent (Parser.bind_absent (exactly_ne rfl hminus))).trans ?_
    exact Parser.orElse_absent (Parser.bind_absent (exactly_ne rfl hplus))

theorem exponent_of {down : Bool} {es : List Nat} (hc : c = 'e' ∨ c = 'E')
    (h : exponent? cs = some (down, es, rest)) :
    ∃ e fit, exponent (c :: cs) = .of fit e rest ∧ legible (c :: cs) = (fit && legible rest) ∧
      rest.length < cs.length := by
  obtain ⟨r, hsign, hr, hlegible, hle⟩ := exponent_sign h
  obtain ⟨-, -, -, hdigits, hfit, hlt⟩ := digits_of hr
  have hletter : (Parser.exactly "e" <|> Parser.exactly "E" : Parser Unit) (c :: cs) =
      .found () cs := by
    rcases hc with rfl | rfl <;> rfl
  have hplain : legible (c :: cs) = legible cs := by
    rcases hc with rfl | rfl <;> rfl
  have hexponent : exponent (c :: cs) = .of _ _ rest :=
    (Parser.bind_found hletter).trans ((Parser.bind_found hsign).trans
      (Parser.map_of (g := fun ds => if down then -(decimal ds : Int) else decimal ds) hdigits))
  exact ⟨_, _, hexponent, by rw [hplain, hlegible, hfit], Nat.lt_of_lt_of_le hlt hle⟩

theorem exponent_absent (h : Closed rest) : exponent rest = .absent := by
  refine Parser.bind_absent ?_
  cases rest with
  | nil => rfl
  | cons c r =>
    obtain ⟨-, -, he, hE, -⟩ := h.ends
    exact (Parser.orElse_absent (exactly_ne rfl he)).trans (exactly_ne rfl hE)

/-- The exponent of a number that ends where a value may end. -/
theorem Scaled.exponent {whole fraction : List Nat} {pointed : Bool}
    (h : Scaled negative whole fraction pointed cs n rest) (hr : Closed rest) :
    ∃ e fit, Parser.perhaps exponent cs = .of fit e rest ∧ legible cs = (fit && legible rest) ∧
      rest.length ≤ cs.length ∧
      ((∃ d, n = .double d) ∨ fit = true ∧ e = none ∧ pointed = false ∧ natOf whole < digitLimit ∧
        n = .integer (if negative then -(natOf whole : Int) else natOf whole) ∧
        (negative = true → natOf whole ≠ 0)) := by
  rcases h with ⟨c, r, down, es, hc, rfl, he, hn⟩ | ⟨rfl, hn⟩
  · obtain ⟨e, fit, hexponent, hfit, hlt⟩ := exponent_of hc he
    refine ⟨some e, fit, Parser.perhaps_of hexponent, hfit,
      Nat.le_succ_of_le (Nat.le_of_lt hlt), ?_⟩
    rcases number_cases hn with hd | ⟨hint, -⟩
    · exact .inl hd
    · cases hint
  · refine ⟨none, true, Parser.perhaps_absent (exponent_absent hr), rfl, Nat.le_refl _, ?_⟩
    rcases number_cases hn with hd | ⟨hint, hlt, heq, hzero⟩
    · exact .inl hd
    · exact .inr ⟨rfl, rfl, by simpa using hint, hlt, heq, hzero⟩

/-- The number of an integer part, a fraction and an exponent. -/
def composed (whole fraction : List Char) (power : Option Int) : Double :=
  .ofDecimal (decimal (whole ++ fraction)) (power.getD 0 - fraction.length)

/-- A number with a point. -/
theorem number_pointed {r tail fs : List Char} {e : Option Int} {fit fit' fit'' : Bool}
    (hwhole : digits cs = .of fit ds ('.' :: r)) (hfraction : digits r = .of fit' fs tail)
    (hexponent : Parser.perhaps exponent tail = .of fit'' e rest) :
    number cs = .of (fit && (fit' && fit'')) (composed ds fs e) rest := by
  have hpoint : Parser.exactly "." ('.' :: r) = .found () r := rfl
  have hpointed : (Parser.exactly "." *> digits) ('.' :: r) = .of fit' fs tail :=
    (Parser.seqRight_found hpoint).trans hfraction
  exact Parser.bind_of hwhole (Parser.bind_of (Parser.perhaps_of hpointed)
    (Parser.map_of (g := composed ds fs) hexponent))

/-- A number without a point. -/
theorem number_whole {point : List Char} {e : Option Int} {fit fit' : Bool}
    (hwhole : digits cs = .of fit ds point) (hpoint : ∀ r, point ≠ '.' :: r)
    (hexponent : Parser.perhaps exponent point = .of fit' e rest) :
    number cs = .of (fit && fit') (composed ds [] e) rest := by
  have hdot : (Parser.exactly "." *> digits) point = .absent := by
    refine Parser.seqRight_absent ?_
    cases point with
    | nil => rfl
    | cons c r => exact exactly_ne rfl fun hc => hpoint r (hc ▸ rfl)
  exact Parser.bind_of hwhole ((Parser.bind_found (Parser.perhaps_absent hdot)).trans
    (Parser.map_of (g := composed ds []) hexponent))

theorem composed_whole (h : decimal ds < digitLimit) :
    composed ds [] none = .ofNat (decimal ds) := by
  change Double.ofDecimal (decimal (ds ++ [])) 0 = _
  rw [List.append_nil]
  exact Double.ofDecimal_zero h

theorem unsigned_head (h : unsigned? negative cs = some (n, rest)) :
    ∃ d r, cs = d :: r ∧ isDigit d = true := by
  obtain ⟨whole, point, hwhole, -⟩ := unsigned_cases h
  exact digits_head hwhole

/-- A number without its sign is read up to its end; what an integer is read as is that integer. -/
theorem number_of (h : unsigned? negative cs = some (n, rest)) (hr : Closed rest) :
    ∃ d fit, number cs = .of fit d rest ∧ legible cs = (fit && legible rest) ∧
      rest.length < cs.length ∧ d.isNegative = false ∧
      ((∃ x, n = .double x) ∨ ∃ k : Nat, d = .ofNat k ∧
        n = .integer (if negative then -(k : Int) else k) ∧ (negative = true → k ≠ 0)) := by
  obtain ⟨whole, point, hwhole, h⟩ := unsigned_cases h
  obtain ⟨-, hds, -, hdigits, hfit, hlt⟩ := digits_of hwhole
  rcases h with ⟨r, fraction, tail, rfl, hfraction, hscaled⟩ | ⟨hpoint, hscaled⟩
  · obtain ⟨-, -, -, hdigits', hfit', hlt'⟩ := digits_of hfraction
    obtain ⟨e, fit, hexponent, hfit'', hle, hn⟩ := hscaled.exponent hr
    refine ⟨_, _, number_pointed hdigits hdigits' hexponent, ?_, ?_,
      Double.ofDecimal_nonneg _ _, ?_⟩
    · have hdot : legible ('.' :: r) = legible r := rfl
      rw [hfit, hdot, hfit', hfit'', Bool.and_assoc, Bool.and_assoc]
    · simp only [List.length_cons] at hlt
      omega
    · rcases hn with hd | ⟨-, -, hpointed, -⟩
      · exact .inl hd
      · cases hpointed
  · obtain ⟨e, fit, hexponent, hfit', hle, hn⟩ := hscaled.exponent hr
    refine ⟨_, _, number_whole hdigits hpoint hexponent, by rw [hfit, hfit', Bool.and_assoc],
      by omega, Double.ofDecimal_nonneg _ _, ?_⟩
    rcases hn with hd | ⟨-, rfl, -, hlimit, heq, hzero⟩
    · exact .inl hd
    · rw [hds, natOf_digitsOf] at hlimit heq hzero
      exact .inr ⟨_, composed_whole hlimit, heq, hzero⟩

theorem ofNumber_signed {d : Double} (h : d.isNegative = false) (negative : Bool) :
    Expr.ofNumber (Json.Parser.signed negative d) = Expr.ofNumber.signed negative d := by
  cases negative with
  | false =>
    change (if d.isNegative = true then _ else _) = _
    rw [h]
    rfl
  | true =>
    change (if d.negate.isNegative = true then Expr.ofNumber.signed true d.negate.negate else _) = _
    rw [Double.isNegative_negate, h, Double.negate_negate]
    rfl

theorem ofNumber_integer {k : Nat} (h : negative = true → k ≠ 0) :
    Expr.ofNumber (.integer (if negative then -(k : Int) else k)) =
      Expr.ofNumber.signed negative (.ofNat k) := by
  cases negative with
  | false =>
    rw [if_neg Bool.false_ne_true, Expr.ofNumber, Int.natAbs_natCast, decide_eq_false (by omega)]
  | true =>
    have hk := h rfl
    rw [if_pos rfl, Expr.ofNumber, Int.natAbs_neg, Int.natAbs_natCast, decide_eq_true (by omega)]

/-- A number of the document as a template reads it. -/
theorem ofNumber_of {d : Double} (hd : d.isNegative = false)
    (hn : (∃ x, n = .double x) ∨ ∃ k : Nat, d = .ofNat k ∧
      n = .integer (if negative then -(k : Int) else k) ∧ (negative = true → k ≠ 0)) :
    ∃ w : Json.Number, w.sketch = n.sketch ∧ Expr.ofNumber w = Expr.ofNumber.signed negative d := by
  rcases hn with ⟨x, rfl⟩ | ⟨k, rfl, rfl, hzero⟩
  · exact ⟨Json.Parser.signed negative d, rfl, ofNumber_signed hd negative⟩
  · exact ⟨_, rfl, ofNumber_integer hzero⟩

end MachineProvider.Jsonnet
