import MachineProvider.Proofs.Decimal.Rounding

/-! Integers of fifty-three bits are doubles, and their shortest decimals are their own digits. -/
namespace MachineProvider

variable {n : Nat}

theorem log2_mul_pow (h : n ≠ 0) (k : Nat) : (n * Nat.pow 2 k).log2 = n.log2 + k := by
  induction k with
  | zero => simp
  | succ k ih =>
    have hpos : n * Nat.pow 2 k ≠ 0 := Nat.mul_ne_zero h (Nat.ne_of_gt (Nat.two_pow_pos k))
    have hsucc : n * Nat.pow 2 (k + 1) = 2 * (n * Nat.pow 2 k) := by
      rw [show Nat.pow 2 (k + 1) = Nat.pow 2 k * 2 from rfl, ← Nat.mul_assoc, Nat.mul_comm]
    rw [hsucc, Nat.log2_two_mul hpos, ih]
    omega

namespace Double

/-- How far an integer is moved up to fill the significand. -/
def room (n : Nat) : Nat := 52 - n.log2

/-- The significand of a positive integer. -/
def filled (n : Nat) : Nat := n * Nat.pow 2 (room n)

theorem log2_le (h : n < Nat.pow 2 53) : n.log2 ≤ 52 := by
  by_cases h0 : n = 0
  · simp [h0]
  · have := (Nat.log2_lt h0).2 h
    omega

theorem room_le (n : Nat) : room n ≤ 52 := Nat.sub_le 52 n.log2

theorem implicitBit_le_filled (h0 : n ≠ 0) (h : n < Nat.pow 2 53) : implicitBit ≤ filled n := by
  calc implicitBit = 2 ^ n.log2 * 2 ^ room n := by
        rw [← Nat.pow_add, room, Nat.add_sub_cancel' (log2_le h)]
        rfl
    _ ≤ n * 2 ^ room n := Nat.mul_le_mul_right _ (Nat.log2_self_le h0)

theorem filled_lt (h : n < Nat.pow 2 53) : filled n < 2 * implicitBit := by
  calc n * 2 ^ room n < 2 ^ (n.log2 + 1) * 2 ^ room n :=
        Nat.mul_lt_mul_of_pos_right Nat.lt_log2_self (Nat.two_pow_pos _)
    _ = 2 * implicitBit := by
        rw [← Nat.pow_add, room, Nat.add_right_comm, Nat.add_sub_cancel' (log2_le h)]
        rfl

theorem normal_nat (h0 : n ≠ 0) (h : n < Nat.pow 2 53) : Normal (filled n) (room n) :=
  ⟨implicitBit_le_filled h0 h, filled_lt h, Nat.le_trans (room_le n) (by decide)⟩

/-- A positive integer is exact. -/
theorem nearest_nat (h0 : n ≠ 0) (h : n < Nat.pow 2 53) :
    nearest n 1 = ofParts (filled n) (room n) := by
  have hroom := room_le n
  have hnum : n * Nat.pow 2 (room n) = filled n := rfl
  have hlow := implicitBit_le_filled h0 h
  have hhigh := filled_lt h
  have hfilled : Filled n 1 (room n) := ⟨by omega, by omega⟩
  exact hfilled.nearest_eq (by omega) ⟨by omega, by omega, fun _ => by omega⟩

theorem nearest_nonneg (num den : Nat) : (nearest num den).isNegative = false := by
  unfold nearest
  split
  · decide
  · dsimp only
    generalize hbits : bitsOf (halfEven (num * Nat.pow 2 (-unitOf num den).toNat)
      (den * Nat.pow 2 (unitOf num den).toNat)) (unitOf num den) = bits
    split
    · next hlt =>
      have hinfinity : infinity.bits.toNat = 2047 * implicitBit := by decide
      have hb : bits / implicitBit < 2048 :=
        (Nat.div_lt_iff_lt_mul (by decide)).2 (Nat.lt_of_lt_of_le hlt (by rw [hinfinity]; decide))
      have hf : bits % implicitBit < implicitBit := Nat.mod_lt _ (by decide)
      have hsplit : bits / implicitBit * implicitBit + bits % implicitBit = bits :=
        Nat.div_add_mod' bits implicitBit
      exact hsplit ▸ (fields_ofNat hb hf).2.2
    · decide

theorem ofDecimal_nonneg (digits : Nat) (exponent : Int) :
    (ofDecimal digits exponent).isNegative = false := by
  unfold ofDecimal
  dsimp only
  split
  · decide
  · split
    · decide
    · exact nearest_nonneg _ _

/-- Digits without a fraction or an exponent are an integer. -/
theorem ofDecimal_zero (hn : n < 0x10000000000000000) : ofDecimal n 0 = ofNat n := by
  have hlen : (Nat.toDigits 10 n).length ≤ 20 :=
    (Nat.length_toDigits_le_iff (by decide) (by decide)).2 (Nat.lt_trans hn (by decide))
  unfold ofDecimal
  dsimp only
  split
  · next h =>
    rcases h with rfl | h
    · rfl
    · omega
  · rw [if_neg (by omega)]
    have hone : Nat.pow 10 (0 : Int).toNat = 1 := rfl
    have hone' : Nat.pow 10 (-0 : Int).toNat = 1 := rfl
    rw [hone, hone', Nat.mul_one]
    rfl

variable (h0 : n ≠ 0) (h : n < Nat.pow 2 53)

include h0 h in
theorem fields_nat : (nearest n 1).biased = 1075 - room n ∧
    (nearest n 1).fraction = filled n - implicitBit ∧ (nearest n 1).isNegative = false :=
  nearest_nat h0 h ▸ (normal_nat h0 h).fields

include h0 h in
theorem significand_nat : (nearest n 1).significand = filled n :=
  nearest_nat h0 h ▸ (normal_nat h0 h).significand_eq

include h0 h in
theorem scale_nat : (nearest n 1).scale = -(room n : Int) :=
  nearest_nat h0 h ▸ (normal_nat h0 h).scale_eq

theorem xor_and (a b c : UInt64) : (a ^^^ b) &&& c = (a &&& c) ^^^ (b &&& c) := by
  refine UInt64.toBitVec_inj.1 ?_
  ext i
  simp [Bool.and_xor_distrib_right]

section Sign

variable (d : Double)

theorem biased_negate : d.negate.biased = d.biased := by
  unfold biased negate
  have hsign : (0x8000000000000000 : UInt64) >>> 52 &&& 0x7ff = 0 := by decide
  simp only [UInt64.shiftRight_xor, xor_and, hsign, UInt64.xor_zero]

theorem fraction_negate : d.negate.fraction = d.fraction := by
  unfold fraction negate
  have hsign : (0x8000000000000000 : UInt64) &&& 0xfffffffffffff = 0 := by decide
  simp only [xor_and, hsign, UInt64.xor_zero]

theorem negate_negate : d.negate.negate = d := by
  simp only [negate, UInt64.xor_assoc, UInt64.xor_self, UInt64.xor_zero]

theorem isNegative_negate : d.negate.isNegative = !d.isNegative := by
  unfold isNegative negate
  have hsign : (0x8000000000000000 : UInt64) >>> 63 = 1 := by decide
  have hlt : (d.bits >>> 63).toNat < 2 := by
    rw [UInt64.toNat_shiftRight, Nat.shiftRight_eq_div_pow]
    have := d.bits.toNat_lt
    have hshift : (63 : UInt64).toNat % 64 = 63 := rfl
    rw [hshift]
    omega
  have hbit : d.bits >>> 63 = 0 ∨ d.bits >>> 63 = 1 := by
    generalize d.bits >>> 63 = x at hlt
    have hzero : (0 : UInt64).toNat = 0 := rfl
    have hone : (1 : UInt64).toNat = 1 := rfl
    rw [← UInt64.toNat_inj, ← UInt64.toNat_inj]
    omega
  rw [UInt64.shiftRight_xor, hsign]
  rcases hbit with h | h <;> rw [h] <;> decide

end Sign

end Double

namespace Decimal

/-- An interval of less than an integer's own neighbourhood around the integer. -/
structure Interval.Around (i : Interval) (n : Nat) : Prop where
  value_eq : i.value = n * i.denominator
  power : ∃ k, i.denominator = Nat.pow 2 (k + 2)
  low_lt : i.low < i.value
  low_close : i.value ≤ i.low + 2
  high_gt : i.value < i.high
  high_close : i.high ≤ i.value + 2

theorem Interval.around_nearest (h0 : n ≠ 0) (h : n < Nat.pow 2 53) :
    (Interval.of (Double.nearest n 1)).Around n := by
  have hm := Double.significand_nat h0 h
  have hq := Double.scale_nat h0 h
  have hfilled := Double.implicitBit_le_filled h0 h
  have hpos : 0 < Double.implicitBit := by decide
  have hunit : (-(Double.room n : Int) - 2).toNat = 0 := by omega
  have hden : (2 - -(Double.room n : Int)).toNat = Double.room n + 2 := by omega
  have hone : Nat.pow 2 0 = 1 := rfl
  unfold Interval.of
  dsimp only
  rw [hm, hq, hunit, hden, hone]
  refine ⟨?_, ⟨_, rfl⟩, ?_, ?_, ?_, ?_⟩
  · change 4 * (n * Nat.pow 2 (Double.room n)) * 1 = n * (Nat.pow 2 (Double.room n) * 2 * 2)
    generalize Nat.pow 2 (Double.room n) = p
    simp only [Nat.mul_assoc, Nat.mul_one, Nat.mul_left_comm 4]
    rw [Nat.mul_comm 4]
  all_goals dsimp only
  all_goals (try split) <;> omega

namespace Interval.Around

variable {i : Interval} (h : i.Around n)

include h in
theorem denominator_ge : 4 ≤ i.denominator := by
  obtain ⟨k, hk⟩ := h.power
  rw [hk]
  have := Nat.two_pow_pos k
  change 4 ≤ 2 ^ k * 2 * 2
  omega

include h in
/-- On a coarser grid only the integer itself is close enough. -/
theorem pick_eq {c r p : Nat} (hn : n = c * p + r) (hr : r < p) :
    ({ i with denominator := i.denominator * p } : Interval).pick =
      if r = 0 then some c else none := by
  have hd := h.denominator_ge
  obtain ⟨hvalue, -, hlow, hlow', hhigh, hhigh'⟩ := h
  obtain ⟨step, hstep⟩ : ∃ step, step = i.denominator * p := ⟨_, rfl⟩
  obtain ⟨rest, hrest⟩ : ∃ rest, rest = r * i.denominator := ⟨_, rfl⟩
  have hsplit : i.value = c * step + rest := by
    rw [hvalue, hn, hstep, hrest, Nat.add_mul, Nat.mul_assoc, Nat.mul_comm p]
  have hmin : r ≠ 0 → 4 ≤ rest := fun hr0 => by
    have := Nat.mul_le_mul (Nat.one_le_iff_ne_zero.2 hr0) hd
    omega
  have hmax : rest + 4 ≤ step := by
    have := Nat.mul_le_mul_right i.denominator (show r + 1 ≤ p from hr)
    rw [Nat.add_mul, Nat.mul_comm p] at this
    omega
  have hbelow : i.value / step = c := by
    rw [hsplit, Nat.mul_comm, Nat.mul_add_div (by omega), Nat.div_eq_of_lt (by omega), Nat.add_zero]
  have hnext : (c + 1) * step = c * step + step := Nat.succ_mul c step
  unfold Interval.pick Interval.holds
  simp only [← hstep, hbelow, hnext]
  by_cases hr0 : r = 0
  · have hzero : rest = 0 := by rw [hrest, hr0, Nat.zero_mul]
    have hhere : (if i.closed = true then decide (i.low ≤ c * step) && decide (c * step ≤ i.high)
        else decide (i.low < c * step) && decide (c * step < i.high)) = true := by
      split <;> simp <;> omega
    have hcloser : i.value - c * step < c * step + step - i.value := by omega
    rw [hhere, if_pos hr0]
    split <;> simp_all
  · have := hmin hr0
    have hhere : (if i.closed = true then decide (i.low ≤ c * step) && decide (c * step ≤ i.high)
        else decide (i.low < c * step) && decide (c * step < i.high)) = false := by
      split <;> simp <;> omega
    have hthere : (if i.closed = true then
        decide (i.low ≤ c * step + step) && decide (c * step + step ≤ i.high)
        else decide (i.low < c * step + step) && decide (c * step + step < i.high)) = false := by
      split <;> simp <;> omega
    rw [hhere, hthere, if_neg hr0]

/-- The first guess at the leading exponent is right or one too low. -/
theorem guess_close : ∀ l : Nat, l < 53 →
    ∃ k : Nat, k < 20 ∧ Int.fdiv (((l : Int) - 1) * 30103) 100000 = (k : Int) - 1 ∧
      (k ≠ 0 → Nat.pow 10 (k - 1) ≤ Nat.pow 2 l) ∧ Nat.pow 2 (l + 1) ≤ Nat.pow 10 (k + 1) := by
  decide

theorem exponent_unique {t k : Nat} (hlow : Nat.pow 10 t ≤ n) (hhigh : n < Nat.pow 10 (t + 1))
    (hlow' : Nat.pow 10 k ≤ n) (hhigh' : n < Nat.pow 10 (k + 1)) : k = t := by
  have hkt : k < t + 1 := (Nat.pow_lt_pow_iff_right (by decide)).1 (Nat.lt_of_le_of_lt hlow' hhigh)
  have htk : t < k + 1 := (Nat.pow_lt_pow_iff_right (by decide)).1 (Nat.lt_of_le_of_lt hlow hhigh')
  omega

include h in
theorem reaches_eq (k : Nat) : (i.denominator * Nat.pow 10 ((k : Int)).toNat ≤
    i.value * Nat.pow 10 (-(k : Int)).toNat) ↔ Nat.pow 10 k ≤ n := by
  have hd := h.denominator_ge
  have hneg : (-(k : Int)).toNat = 0 := by omega
  have hone : Nat.pow 10 0 = 1 := rfl
  rw [hneg, hone, Nat.mul_one, h.value_eq, Int.toNat_natCast, Nat.mul_comm n]
  exact Nat.mul_le_mul_left_iff (by omega)

include h in
theorem magnitude_eq (h0 : n ≠ 0) (hn : n < Nat.pow 2 53) {t : Nat} (hlow : Nat.pow 10 t ≤ n)
    (hhigh : n < Nat.pow 10 (t + 1)) : i.magnitude = t := by
  obtain ⟨k, -, hguess, hclose, hcover⟩ := guess_close n.log2 (by have := Double.log2_le hn; omega)
  have hover : ¬ Nat.pow 10 (k + 1) ≤ n :=
    Nat.not_le.2 (Nat.lt_of_lt_of_le Nat.lt_log2_self hcover)
  have hbits : (Nat.log2 i.value : Int) - Nat.log2 i.denominator - 1 = (n.log2 : Int) - 1 := by
    obtain ⟨j, hj⟩ := h.power
    have hden : Nat.log2 (Nat.pow 2 (j + 2)) = j + 2 := Nat.log2_two_pow
    rw [h.value_eq, hj, log2_mul_pow h0, hden]
    omega
  have hsucc : (k : Int) - 1 + 1 = k := by omega
  unfold Interval.magnitude
  simp only [hbits, hguess, hsucc, h.reaches_eq, decide_eq_true_eq]
  by_cases hk : Nat.pow 10 k ≤ n
  · have hstop : ¬ i.denominator * Nat.pow 10 ((k : Int) + 1).toNat ≤
        i.value * Nat.pow 10 (-((k : Int) + 1)).toNat := (not_congr (h.reaches_eq (k + 1))).2 hover
    rw [if_pos hk, if_neg hstop, exponent_unique hlow hhigh hk (Nat.not_le.1 hover)]
  · have hk0 : k ≠ 0 := by
      rintro rfl
      exact hk (Nat.one_le_iff_ne_zero.2 h0)
    rw [if_neg hk, hsucc, if_neg ((not_congr (h.reaches_eq k)).2 hk)]
    have hlow' := Nat.le_trans (hclose hk0) (Nat.log2_self_le h0)
    have hk1 : k - 1 + 1 = k := by omega
    have := exponent_unique hlow hhigh hlow' (by rw [hk1]; exact Nat.not_le.1 hk)
    omega

end Interval.Around

/-- Zeros in front of the point. -/
theorem toDigits_mul_pow (h0 : n ≠ 0) (x : Nat) :
    Nat.toDigits 10 (n * Nat.pow 10 x) = Nat.toDigits 10 n ++ zeros x := by
  induction x with
  | zero => simp [zeros]
  | succ x ih =>
    have hpos : n * Nat.pow 10 x ≠ 0 := Nat.mul_ne_zero h0 (Nat.ne_of_gt (Nat.pow_pos (by decide)))
    have hsucc : n * Nat.pow 10 (x + 1) = n * Nat.pow 10 x * 10 := (Nat.mul_assoc ..).symm
    have hstep := Nat.toDigits_of_base_le (show 1 < 10 by decide)
      (show 10 ≤ n * Nat.pow 10 x * 10 by omega)
    rw [Nat.mul_div_cancel _ (by decide), Nat.mul_mod_left] at hstep
    rw [hsucc, hstep, ih, List.append_assoc]
    congr 1
    exact (List.replicate_succ' ..).symm

/-- A decimal without a fraction, and which integer it is. -/
def Spells (n : Nat) (d : Decimal) : Prop :=
  ∃ x : Nat, d.exponent = x ∧ d.digits * Nat.pow 10 x = n

theorem Spells.plain_eq {d : Decimal} (h : Spells n d) (h0 : n ≠ 0) : d.plain = n.repr := by
  obtain ⟨x, hx, hn⟩ := h
  have hd : d.digits ≠ 0 := by
    rintro hd
    rw [hd, Nat.zero_mul] at hn
    exact h0 hn.symm
  unfold plain positional digitText
  rw [if_pos (by omega), hx, Int.toNat_natCast, ← toDigits_mul_pow hd, hn,
    Nat.repr_eq_ofList_toDigits]

/-- The first that is found stands no further back than one that is there. -/
theorem getD_findSome?_range {α : Type} {P : α → Prop} {f : Nat → Option α} {m t : Nat} {a : α}
    (ht : t < m) (hsome : (f t).isSome) (hP : ∀ k ≤ t, ∀ r, f k = some r → P r) :
    P (((List.range m).findSome? f).getD a) := by
  have hrange : List.range m =
      List.range (t + 1) ++ (List.range (m - (t + 1))).map (t + 1 + ·) := by
    rw [← List.range_add, Nat.add_sub_cancel' ht]
  have hfound : ((List.range (t + 1)).findSome? f).isSome :=
    List.findSome?_isSome_iff.2 ⟨t, List.mem_range.2 (Nat.lt_succ_self t), hsome⟩
  obtain ⟨r, hr⟩ := Option.isSome_iff_exists.1 hfound
  obtain ⟨k, hk, hfk⟩ := List.exists_of_findSome?_eq_some hr
  rw [hrange, List.findSome?_append, hr, Option.some_or, Option.getD_some]
  exact hP k (Nat.le_of_lt_succ (List.mem_range.1 hk)) r hfk

theorem scaleBy_neg (i : Interval) (x : Nat) :
    i.scaleBy (-(x : Int)) = { i with denominator := i.denominator * Nat.pow 10 x } := by
  have hdown : (-(x : Int)).toNat = 0 := by omega
  have hup : (- -(x : Int)).toNat = x := by omega
  have hone : Nat.pow 10 0 = 1 := rfl
  simp only [Interval.scaleBy, hdown, hup, hone, Nat.mul_one]

/-- The exponent of the leading digit of an integer. -/
theorem exists_leading (h0 : n ≠ 0) (hn : n < Nat.pow 2 53) :
    ∃ t < 16, Nat.pow 10 t ≤ n ∧ n < Nat.pow 10 (t + 1) := by
  have hpos : 0 < (Nat.toDigits 10 n).length := Nat.length_toDigits_pos
  have hlen : ∀ k, 0 < k → ((Nat.toDigits 10 n).length ≤ k ↔ n < 10 ^ k) := fun k hk =>
    Nat.length_toDigits_le_iff (by decide) hk
  refine ⟨(Nat.toDigits 10 n).length - 1, ?_, ?_, ?_⟩
  · have hsmall : Nat.pow 2 53 ≤ 10 ^ 16 := by decide
    have := (hlen 16 (by decide)).2 (Nat.lt_of_lt_of_le hn hsmall)
    omega
  · rcases Nat.eq_or_lt_of_le (show 1 ≤ (Nat.toDigits 10 n).length from hpos) with hone | hmore
    · rw [← hone]
      exact Nat.one_le_iff_ne_zero.2 h0
    · have := (not_congr (hlen ((Nat.toDigits 10 n).length - 1) (by omega))).1 (by omega)
      exact Nat.not_lt.1 this
  · rw [Nat.sub_add_cancel hpos]
    exact (hlen _ hpos).1 (Nat.le_refl _)

theorem spells_shortest (h0 : n ≠ 0) (hn : n < Nat.pow 2 53) :
    Spells n (shortest (Double.nearest n 1)) := by
  obtain ⟨t, ht, hlow, hhigh⟩ := exists_leading h0 hn
  have haround := Interval.around_nearest h0 hn
  have hzero : (Double.nearest n 1).isZero = false := by
    have hroom := Double.room_le n
    rw [Double.isZero, (Double.fields_nat h0 hn).1, beq_eq_false_iff_ne.2 (by omega)]
    rfl
  have hpick : ∀ k ≤ t, ((Interval.of (Double.nearest n 1)).scaleBy (-((t : Int) - k))).pick =
      if n % Nat.pow 10 (t - k) = 0 then some (n / Nat.pow 10 (t - k)) else none := by
    intro k hk
    have hx : (t : Int) - k = ((t - k : Nat) : Int) := by omega
    have hpow : 0 < Nat.pow 10 (t - k) := Nat.pow_pos (by decide)
    rw [hx, scaleBy_neg]
    exact haround.pick_eq (Nat.div_add_mod' ..).symm (Nat.mod_lt _ hpow)
  unfold shortest
  rw [hzero, if_neg Bool.false_ne_true]
  dsimp only
  rw [haround.magnitude_eq h0 hn hlow hhigh]
  refine getD_findSome?_range (show t < 17 by omega) ?_ fun k hk r hr => ?_
  · -- The grid of ones holds the integer.
    rw [hpick t (Nat.le_refl t), Nat.sub_self, if_pos (Nat.mod_one n)]
    rfl
  · obtain ⟨x, hx⟩ : ∃ x, x = t - k := ⟨_, rfl⟩
    obtain ⟨c, hc⟩ : ∃ c, c = n / Nat.pow 10 x := ⟨_, rfl⟩
    rw [hpick k hk, ← hx, ← hc] at hr
    by_cases hdvd : n % Nat.pow 10 x = 0
    · have hn : c * Nat.pow 10 x = n := hc ▸ Nat.div_mul_cancel (Nat.dvd_of_mod_eq_zero hdvd)
      rw [if_pos hdvd, Option.map_some, Option.some.injEq] at hr
      split at hr
      · next hcarry =>
        refine ⟨x + 1, by rw [← hr]; dsimp only; omega, ?_⟩
        have hten : c / 10 * 10 = c := Nat.div_mul_cancel (Nat.dvd_of_mod_eq_zero hcarry)
        have hsucc : Nat.pow 10 (x + 1) = 10 * Nat.pow 10 x := Nat.mul_comm ..
        rw [← hr, hsucc, ← Nat.mul_assoc, hten, hn]
      · exact ⟨x, by rw [← hr]; dsimp only; omega, by rw [← hr, hn]⟩
    · rw [if_neg hdvd] at hr
      cases hr

/-- Only the magnitude counts. -/
theorem shortest_negate (d : Double) : shortest d.negate = shortest d := by
  unfold shortest Interval.of Double.isZero Double.significand Double.scale
  simp only [Double.biased_negate, Double.fraction_negate]

end Decimal

namespace Double

theorem ofNat_plain (hn : n ≤ Nat.pow 2 53) : (Decimal.shortest (ofNat n)).plain = n.repr := by
  by_cases h0 : n = 0
  · subst h0
    decide +kernel
  · rcases Nat.eq_or_lt_of_le hn with hlast | hlt
    · subst hlast
      decide +kernel
    · exact (Decimal.spells_shortest h0 hlt).plain_eq h0

theorem ofNat_finite (hn : n ≤ Nat.pow 2 53) :
    (ofNat n).biased < 2047 ∧ (ofNat n).isNegative = false := by
  by_cases h0 : n = 0
  · subst h0
    decide +kernel
  · rcases Nat.eq_or_lt_of_le hn with hlast | hlt
    · subst hlast
      decide +kernel
    · obtain ⟨hbiased, -, hsign⟩ := fields_nat h0 hlt
      have hroom := room_le n
      exact ⟨by rw [ofNat, hbiased]; omega, hsign⟩

theorem plainText_of_finite {d : Double} (h : d.biased < 2047) : d.plainText =
    if d.isNegative then "-" ++ (Decimal.shortest d).plain else (Decimal.shortest d).plain := by
  have hnan : d.isNaN = false := by
    rw [isNaN, beq_eq_false_iff_ne.2 (Nat.ne_of_lt h)]
    rfl
  have hfinite : d.isFinite = true := decide_eq_true h
  unfold plainText
  rw [hnan, hfinite, if_neg Bool.false_ne_true]
  rfl

/-- An integer of up to fifty-three bits is a finite number with its own sign and digits. -/
theorem ofInt_parts {n : Int} (hn : n.natAbs ≤ Nat.pow 2 53) :
    (ofInt n).isFinite = true ∧ (ofInt n).isNegative = decide (n < 0) ∧
      (Decimal.shortest (ofInt n)).plain = n.natAbs.repr := by
  obtain ⟨hfinite, hsign⟩ := ofNat_finite hn
  have hplain := ofNat_plain hn
  unfold ofInt
  by_cases hneg : n < 0
  · have hfinite' : (ofNat n.natAbs).negate.biased < 2047 := by rwa [biased_negate]
    rw [if_pos hneg, isNegative_negate, hsign, Decimal.shortest_negate, decide_eq_true hneg]
    exact ⟨decide_eq_true hfinite', rfl, hplain⟩
  · rw [if_neg hneg, hsign, decide_eq_false hneg]
    exact ⟨decide_eq_true hfinite, rfl, hplain⟩

end Double

end MachineProvider
