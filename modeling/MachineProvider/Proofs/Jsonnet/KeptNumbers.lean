import MachineProvider.Proofs.Decimal.Fractions
import MachineProvider.Proofs.Jsonnet.PrintedNumbers

/-!
Numbers that are kept: integers of up to fifty-three bits and fractions of few digits are one double
to both languages, and that double is printed so that it is read again.
-/
namespace MachineProvider.Jsonnet

open Json.Parser (digits? digitsOf natOf number? unsigned?)
open Double (Fraction Normal ofParts nearest)
open Decimal (Few shortest)

variable {cs ds fs rest : List Char} {negative : Bool} {n : Json.Number} {k : Nat}

/-- Digits with a point among them are a fraction that is rounded once. -/
theorem rounded_pointed (hsmall : decimal (ds ++ fs) < Nat.pow 2 53) (hne : decimal (ds ++ fs) ≠ 0)
    (hfs : fs ≠ []) (hlen : fs.length ≤ 22) :
    number? negative (digitsOf ds) (digitsOf fs) none false =
      some (Json.Parser.signed negative (nearest (decimal (ds ++ fs)) (Nat.pow 10 fs.length))) := by
  have hpow : Nat.pow 2 53 < digitLimit := by decide
  have hlen0 : fs.length ≠ 0 := fun h => hfs (List.length_eq_zero_iff.1 h)
  have hwhole :=
    absorb_digits (Nat.lt_of_le_of_lt (decimal_le_append ds fs) (Nat.lt_trans hsmall hpow))
  have hall : (digitsOf fs).foldl (fun n d => n * 10 + d) (decimal ds) = decimal (ds ++ fs) := by
    unfold digitsOf decimal
    rw [List.foldl_map, List.foldl_append]
  have hfraction : Json.Parser.absorb (decimal ds) (digitsOf fs) = (decimal (ds ++ fs), []) := by
    rw [absorb_fits (by rw [hall]; omega), hall]
  have hstart :
      (((([] : List Nat).length : Nat) : Int) -
        (((digitsOf fs).length : Nat) - ((([] : List Nat).length : Nat) : Int))) =
      -(fs.length : Int) := by
    simp [digitsOf]
  have hscaled : Json.Parser.scaled? (decimal (ds ++ fs)) (-(fs.length : Int)) =
      some (nearest (decimal (ds ++ fs)) (Nat.pow 10 fs.length)) := by
    unfold Json.Parser.scaled?
    dsimp only
    rw [if_neg (by omega), if_pos (by omega), Int.neg_neg,
      Double.dividedBy_power hsmall hne hlen0 hlen]
  unfold number?
  simp only [hwhole, hfraction, Bool.false_and, Bool.false_eq_true, if_false]
  rw [hstart, hscaled]
  rfl

theorem decimal_zeros_append (k : Nat) (ds : List Char) :
    decimal (Decimal.zeros k ++ ds) = decimal ds := by
  induction k with
  | zero => rfl
  | succ k ih => exact ih

/-- No zero leads the digits in front of the point, unless it is the only one. -/
theorem pointed_lead {n j : Nat} (hlen : fs.length = j + 1)
    (hall : ds ++ fs =
      Decimal.zeros (j + 2 - (Decimal.digitText n).length) ++ Decimal.digitText n) :
    ((digitsOf ds).head? == some 0 && decide (1 < (digitsOf ds).length)) = false := by
  have htotal := congrArg List.length hall
  rw [List.length_append, List.length_append, Decimal.zeros, List.length_replicate, hlen] at htotal
  have hds : (digitsOf ds).length = ds.length := List.length_map ..
  rcases Nat.lt_or_ge (j + 1) (Decimal.digitText n).length with hlong | hshort
  · obtain ⟨d, ds, rfl⟩ := List.exists_cons_of_length_pos (show 0 < ds.length by omega)
    have htext : Decimal.digitText n = d :: (ds ++ fs) := by
      rw [show j + 2 - (Decimal.digitText n).length = 0 by omega] at hall
      exact hall.symm
    have hlead := toDigits_lead n
    unfold Decimal.digitText at htext hlong
    rw [htext] at hlead hlong
    have hmore : decide (1 < (digitsOf (d :: (ds ++ fs))).length) = true := by
      rw [digitsOf, List.length_map]
      exact decide_eq_true (by omega)
    rw [hmore, Bool.and_true] at hlead
    rw [Bool.and_eq_false_iff]
    exact .inl hlead
  · rw [hds, Bool.and_eq_false_iff]
    exact .inr (decide_eq_false (by omega))

/-- A number that the template prints is read as itself. -/
structure Steady (n : Json.Number) : Prop where
  finite : n.value.isFinite = true
  reread_eq : reread? n = some n

theorem steady_integer {i : Int} (hi : i.natAbs ≤ Nat.pow 2 53) : Steady (.integer i) :=
  ⟨(Double.ofInt_parts hi).1, reread_integer hi⟩

theorem steady_of_whole (h : n.Whole) : Steady n := by
  obtain ⟨i, rfl, hi⟩ := h
  exact steady_integer hi

theorem steady_minusZero : Steady (.double Double.zero.negate) := ⟨rfl, rfl⟩

theorem signed_parts {d : Double} (h : d.isNegative = false) (negative : Bool) :
    (Json.Parser.signed negative d).value.isFinite = d.isFinite ∧
      (Json.Parser.signed negative d).value.isNegative = negative ∧
      shortest (Json.Parser.signed negative d).value = shortest d := by
  cases negative with
  | false => exact ⟨rfl, h, rfl⟩
  | true =>
    refine ⟨?_, ?_, Decimal.shortest_negate d⟩
    · change decide (d.negate.biased < 2047) = decide (d.biased < 2047)
      rw [Double.biased_negate]
    · change d.negate.isNegative = true
      rw [Double.isNegative_negate, h]
      rfl

/-- The double nearest to a fraction of few digits is read as it was printed. -/
theorem steady_fraction {n : Nat} (h : Fraction n k) (negative : Bool) :
    Steady (Json.Parser.signed negative (nearest n (Nat.pow 10 k))) := by
  obtain ⟨m, p, hm, heq, ⟨⟨j, hj, hj0, hj22, hnear⟩, hlt⟩⟩ := h.exists_few
  obtain ⟨hbiased, -, hnonneg⟩ := hm.fields
  rw [heq]
  obtain ⟨hfinite, hsign, hshortest⟩ := signed_parts hnonneg negative
  have hfinite' : (ofParts m p).isFinite = true := decide_eq_true (by omega)
  rw [hfinite'] at hfinite
  refine ⟨hfinite, ?_⟩
  generalize shortest (ofParts m p) = d at hj hnear hlt hshortest
  obtain ⟨j, rfl⟩ : ∃ i, j = i + 1 := ⟨j - 1, by omega⟩
  obtain ⟨ds, fs, htext, hne, hlen, hall⟩ := exists_pointed d hj
  have hdigits : ∀ c ∈ ds ++ fs, isDigit c = true := fun c hc => by
    rw [hall] at hc
    rcases List.mem_append.1 hc with hc | hc
    · exact isDigit_zeros _ c hc
    · exact isDigit_digitText _ c hc
  obtain ⟨hds, hfs⟩ := List.forall_mem_append.1 hdigits
  have hne' : fs ≠ [] := List.ne_nil_of_length_eq_add_one hlen
  have hvalue : decimal (ds ++ fs) = d.digits := by
    rw [hall, decimal_zeros_append]
    exact decimal_toDigits d.digits
  have hzero : d.digits ≠ 0 := by
    intro hzero
    have hclose := (hnear.close hm).1
    rw [hzero, Nat.zero_mul] at hclose
    have hpos : 0 < m * Nat.pow 10 (j + 1) :=
      Nat.mul_pos (Nat.lt_of_lt_of_le (by decide) hm.low) (Decimal.pow_ten_pos _)
    omega
  have hnumber : number? negative (digitsOf ds) (digitsOf fs) none false =
      some (Json.Parser.signed negative (ofParts m p)) := by
    rw [rounded_pointed (hvalue ▸ hlt) (hvalue ▸ hzero) hne' (by omega), hvalue, hlen,
      hnear.nearest_eq hm (Decimal.pow_ten_pos _)]
  have hpointed := unsigned_pointed negative hne hds hne' hfs .nil
  rw [List.append_nil, pointed_lead hlen hall, if_neg Bool.false_ne_true, hnumber] at hpointed
  unfold reread?
  rw [if_pos hfinite, hsign, hshortest, htext, hpointed]
  rfl

/-! ### Brief numbers -/

theorem brief_pointed {r : List Char} (hpoint : cs.dropWhile isDigit = '.' :: r)
    (h : brief cs = true) :
    decimal (cs.takeWhile isDigit ++ r.takeWhile isDigit) < Double.implicitBit ∧
      decimal (r.takeWhile isDigit) ≠ 0 ∧ (r.takeWhile isDigit).length ≤ 21 ∧
      unscaled (r.dropWhile isDigit) = true := by
  unfold brief at h
  rw [hpoint] at h
  dsimp only at h
  split at h
  · next heq =>
    obtain rfl := (List.cons.inj heq).2
    simp only [Bool.and_eq_true, decide_eq_true_eq, bne_iff_ne] at h
    obtain ⟨⟨⟨hsmall, hne⟩, hplaces⟩, htail⟩ := h
    exact ⟨hsmall, hne, hplaces, htail⟩
  · next hne => exact absurd rfl (hne r)

theorem brief_whole (hpoint : ∀ r, cs.dropWhile isDigit ≠ '.' :: r) (h : brief cs = true) :
    decimal (cs.takeWhile isDigit) ≤ Nat.pow 2 53 ∧ unscaled (cs.dropWhile isDigit) = true := by
  unfold brief at h
  dsimp only at h
  split at h
  · next hr => exact absurd hr (hpoint _)
  · rw [Bool.and_eq_true] at h
    exact ⟨of_decide_eq_true h.1, h.2⟩

theorem fits_of_brief (h : brief cs = true) : fits cs = true := by
  have hlimit : Nat.pow 2 53 < digitLimit := by decide
  refine decide_eq_true ?_
  cases hpoint : cs.dropWhile isDigit with
  | nil =>
    exact Nat.lt_of_le_of_lt (brief_whole (by rw [hpoint]; exact nofun) h).1 hlimit
  | cons c r =>
    by_cases hc : c = '.'
    · subst hc
      have := (brief_pointed hpoint h).1
      exact Nat.lt_trans (Nat.lt_of_le_of_lt (decimal_le_append ..) this) (by decide)
    · refine Nat.lt_of_le_of_lt (brief_whole (fun r' hr => hc ?_) h).1 hlimit
      exact (List.cons.inj (hpoint.symm.trans hr)).1
theorem legible_of_modest (h : modest cs = true) : legible cs = true :=
  passes_mono (fun _ => fits_of_brief) h

theorem Scaled.unscaled {whole fraction : List Nat} {pointed : Bool} {tail : List Char}
    (h : Scaled negative whole fraction pointed tail n rest) (ht : unscaled tail = true) :
    tail = rest ∧ number? negative whole fraction none (!pointed) = some n := by
  rcases h with ⟨c, r, down, es, rfl | rfl, rfl, -⟩ | h
  · cases ht
  · cases ht
  · exact h

theorem passes_digits (check : List Char → Bool) (cs : List Char) :
    ∃ b, passes check cs = (b && passes check (cs.dropWhile isDigit)) := by
  induction cs with
  | nil => exact ⟨true, rfl⟩
  | cons c cs ih =>
    by_cases hc : isDigit c = true
    · obtain ⟨b, hb⟩ := ih
      have hquote : c ≠ '"' := by rintro rfl; cases hc
      refine ⟨check (c :: cs) && b, ?_⟩
      rw [passes.eq_3 check c cs hquote, if_pos hc, List.dropWhile_cons, if_pos hc, hb,
        Bool.and_assoc]
    · rw [List.dropWhile_cons, if_neg hc]
      exact ⟨true, rfl⟩

/-- Behind the point of a brief number. -/
theorem fraction_of (hfs : ∀ c ∈ fs, isDigit c = true)
    (hsmall : decimal (ds ++ fs) < Double.implicitBit) (hne : decimal fs ≠ 0)
    (hplaces : fs.length ≤ 21) :
    Fraction (decimal (ds ++ fs)) fs.length := by
  refine ⟨hsmall, hplaces, fun hdvd => ?_⟩
  rw [decimal_append] at hdvd
  have hrest := (Nat.dvd_add_right (Nat.dvd_mul_left ..)).1 hdvd
  exact absurd (Nat.le_of_dvd (Nat.pos_of_ne_zero hne) hrest) (Nat.not_le.2 (decimal_lt hfs))

theorem composed_fraction (h : Fraction (decimal (ds ++ fs)) fs.length) :
    composed ds fs none = nearest (decimal (ds ++ fs)) (Nat.pow 10 fs.length) := by
  rw [← h.ofDecimal_eq, ← Int.zero_sub]
  rfl

/-- Few digits without a point are an integer, or zero with a sign. -/
theorem steady_whole (h : decimal ds ≤ Nat.pow 2 53)
    (hn : number? negative (digitsOf ds) [] none true = some n) :
    Steady n ∧ Expr.ofNumber n = Expr.ofNumber.signed negative (.ofNat (decimal ds)) := by
  by_cases hzero : negative = true ∧ decimal ds = 0
  · obtain ⟨rfl, hzero⟩ := hzero
    have hminus : number? true (digitsOf ds) [] none true =
        some (Json.Parser.signed true .zero) := by
      unfold number?
      rw [absorb_digits (hzero ▸ (by decide)), hzero]
      rfl
    rw [hminus] at hn
    obtain rfl := Option.some.inj hn
    rw [hzero]
    exact ⟨steady_minusZero, ofNumber_signed rfl true⟩
  · have hsign : negative = true → decimal ds ≠ 0 := fun hneg hds => hzero ⟨hneg, hds⟩
    rw [number_integer h hsign] at hn
    obtain rfl := Option.some.inj hn
    refine ⟨steady_integer ?_, ofNumber_integer hsign⟩
    cases negative with
    | false => exact h
    | true => rwa [if_pos rfl, Int.natAbs_neg]

/-- What a number is to a template that keeps it. -/
structure KeptNumber (negative : Bool) (cs rest : List Char) (n : Json.Number) : Prop where
  steady : Steady n
  read_eq : ∃ d, number cs = .found d rest ∧ Expr.ofNumber n = Expr.ofNumber.signed negative d
  modest_eq : ∃ b, modest cs = (b && modest rest)

theorem kept_of_brief (h : unsigned? negative cs = some (n, rest)) (hr : Closed rest)
    (hb : brief cs = true) : KeptNumber negative cs rest n := by
  obtain ⟨whole, point, hwhole, h⟩ := unsigned_cases h
  obtain ⟨hne, rfl, rfl, hdigits, -⟩ := digits_of hwhole
  have hexponent : Parser.perhaps exponent rest = .of true none rest :=
    Parser.perhaps_absent (exponent_absent hr)
  obtain ⟨b, hmodest⟩ := passes_digits brief cs
  have hlimit : Nat.pow 2 53 < digitLimit := by decide
  rcases h with ⟨r, fraction, tail, hpoint, hfraction, hscaled⟩ | ⟨hpoint, hscaled⟩
  · obtain ⟨hne', rfl, rfl, hdigits', -⟩ := digits_of hfraction
    obtain ⟨hsmall, hbroken, hplaces, htail⟩ := brief_pointed hpoint hb
    obtain ⟨rfl, hn⟩ := hscaled.unscaled htail
    have hfs : ∀ c ∈ r.takeWhile isDigit, isDigit c = true := List.all_eq_true.1 List.all_takeWhile
    have hfew := fraction_of hfs hsmall hbroken hplaces
    have hsmall' : decimal (cs.takeWhile isDigit ++ r.takeWhile isDigit) < Nat.pow 2 53 :=
      Nat.lt_trans hsmall (by decide)
    have hds : decimal (cs.takeWhile isDigit) < digitLimit :=
      Nat.lt_trans (Nat.lt_of_le_of_lt (decimal_le_append ..) hsmall') hlimit
    have hfs' : decimal (r.takeWhile isDigit) < digitLimit := by
      rw [decimal_append] at hsmall'
      exact Nat.lt_trans (Nat.lt_of_le_of_lt (Nat.le_add_left ..) hsmall') hlimit
    rw [hpoint] at hdigits hmodest
    have hread := number_pointed hdigits hdigits' hexponent
    rw [decide_eq_true hds, decide_eq_true hfs', composed_fraction hfew] at hread
    have hn' : number? negative _ _ none false = some n := hn
    rw [rounded_pointed hsmall' hfew.ne_zero hne' (Nat.le_succ_of_le hplaces)] at hn'
    obtain rfl := Option.some.inj hn'
    obtain ⟨b', hmodest'⟩ := passes_digits brief r
    have hdot : passes brief ('.' :: r) = passes brief r := rfl
    refine ⟨steady_fraction hfew negative, ⟨_, hread, ?_⟩, b && b', ?_⟩
    · exact ofNumber_signed (Double.nearest_nonneg _ _) negative
    · unfold modest
      rw [hmodest, hdot, hmodest', Bool.and_assoc]
  · obtain ⟨hsmall, htail⟩ := brief_whole hpoint hb
    obtain ⟨rfl, hn⟩ := hscaled.unscaled htail
    obtain ⟨hsteady, hexpr⟩ := steady_whole hsmall hn
    have hds := Nat.lt_of_le_of_lt hsmall hlimit
    have hread := number_whole hdigits hpoint hexponent
    rw [decide_eq_true hds, composed_whole hds] at hread
    exact ⟨hsteady, ⟨_, hread, hexpr⟩, b, hmodest⟩

/-- A number without its sign is a number of the template, and the same number if the text is
modest. -/
theorem number_read (h : unsigned? negative cs = some (n, rest)) (hr : Closed rest) :
    ∃ w d fit plain, number cs = .of fit d rest ∧
      Expr.ofNumber w = Expr.ofNumber.signed negative d ∧
      rest.length < cs.length ∧ Checked cs rest fit plain ∧ w.sketch = n.sketch ∧
      (plain = true → w = n ∧ Steady n) := by
  obtain ⟨d, fit, hread, hfit, hlt, hnonneg, hcases⟩ := number_of h hr
  cases hb : brief cs with
  | false =>
    obtain ⟨w, hsketch, hw⟩ := ofNumber_of hnonneg hcases
    obtain ⟨c, r, rfl, hc⟩ := unsigned_head h
    have hquote : c ≠ '"' := by rintro rfl; cases hc
    refine ⟨w, d, fit, false, hread, hw, hlt, ⟨hfit, ?_⟩, hsketch, nofun⟩
    unfold modest
    rw [passes.eq_3 brief c r hquote, if_pos hc, hb]
    rfl
  | true =>
    obtain ⟨hsteady, ⟨x, hread', hexpr⟩, b, hmodest⟩ := kept_of_brief h hr hb
    rw [hread'] at hread
    cases fit with
    | false => cases hread
    | true =>
      obtain ⟨rfl, -⟩ := Reading.found.inj hread
      exact ⟨n, x, true, b, hread', hexpr, hlt, ⟨hfit, hmodest⟩, rfl, fun _ => ⟨rfl, hsteady⟩⟩

end MachineProvider.Jsonnet
