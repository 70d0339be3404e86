import MachineProvider.Decimal.Nearest
import MachineProvider.Decimal.Shortest

/-!
Rounding to a double, seen from both ends: a fraction below the integers that doubles tell apart is
rounded to a double exactly when it lies in the interval of that double.
-/
namespace MachineProvider.Double

variable {num den p m a b n : Nat}

/-- In units of a power of two, a fraction has fifty-three bits in front of the point. -/
structure Filled (num den p : Nat) : Prop where
  low : implicitBit * den ≤ num * Nat.pow 2 p
  high : num * Nat.pow 2 p < 2 * (implicitBit * den)

namespace Filled

theorem den_pos (h : Filled num den p) : 0 < den := by
  rcases Nat.eq_zero_or_pos den with rfl | hpos
  · exact absurd h.high (Nat.not_lt_zero _)
  · exact hpos

theorem num_pos (h : Filled num den p) : 0 < num := by
  have hlow := h.low
  rcases Nat.eq_zero_or_pos num with rfl | hpos
  · rw [Nat.zero_mul] at hlow
    exact absurd hlow (Nat.not_le.2 (Nat.mul_pos (by decide) h.den_pos))
  · exact hpos

/-- The leading bits leave two possibilities. -/
theorem log2_eq (h : Filled num den p) :
    num.log2 + p = den.log2 + 52 ∨ num.log2 + p = den.log2 + 53 := by
  have hnum := Nat.log2_self_le (Nat.ne_of_gt h.num_pos)
  have hden := Nat.log2_self_le (Nat.ne_of_gt h.den_pos)
  have hmore : den.log2 + 52 < num.log2 + 1 + p := by
    refine (Nat.pow_lt_pow_iff_right (show 1 < 2 by decide)).1 ?_
    calc 2 ^ (den.log2 + 52) = 2 ^ 52 * 2 ^ den.log2 := by rw [Nat.pow_add, Nat.mul_comm]
      _ ≤ 2 ^ 52 * den := Nat.mul_le_mul_left _ hden
      _ ≤ num * 2 ^ p := h.low
      _ < 2 ^ (num.log2 + 1) * 2 ^ p :=
        Nat.mul_lt_mul_of_pos_right Nat.lt_log2_self (Nat.two_pow_pos p)
      _ = 2 ^ (num.log2 + 1 + p) := (Nat.pow_add ..).symm
  have hless : num.log2 + p < den.log2 + 1 + 53 := by
    refine (Nat.pow_lt_pow_iff_right (show 1 < 2 by decide)).1 ?_
    calc 2 ^ (num.log2 + p) = 2 ^ num.log2 * 2 ^ p := Nat.pow_add ..
      _ ≤ num * 2 ^ p := Nat.mul_le_mul_right _ hnum
      _ < 2 ^ 53 * den := Nat.lt_of_lt_of_eq h.high (Nat.mul_assoc ..).symm
      _ < 2 ^ 53 * 2 ^ (den.log2 + 1) :=
        Nat.mul_lt_mul_of_pos_left Nat.lt_log2_self (Nat.two_pow_pos 53)
      _ = 2 ^ (den.log2 + 1 + 53) := by rw [Nat.mul_comm, ← Nat.pow_add]
  omega

theorem unitOf_eq (h : Filled num den p) (hp : p ≤ 1074) : unitOf num den = -(p : Int) := by
  have hone : Nat.pow 2 0 = 1 := rfl
  have hlow := h.low
  have hhigh := h.high
  unfold unitOf
  dsimp only
  rcases h.log2_eq with hlog | hlog
  · have hguess : (num.log2 : Int) - den.log2 - 53 = -((p + 1 : Nat) : Int) := by omega
    have hup : (-((p + 1 : Nat) : Int)).toNat = 0 := by omega
    have hdown : (- -((p + 1 : Nat) : Int)).toNat = p + 1 := by omega
    have hwide : 2 * implicitBit * den * 1 ≤ num * Nat.pow 2 (p + 1) := by
      have hpow : num * Nat.pow 2 (p + 1) = num * Nat.pow 2 p * 2 := (Nat.mul_assoc ..).symm
      rw [hpow, Nat.mul_one, Nat.mul_assoc]
      omega
    rw [hguess, hup, hdown, hone, if_pos hwide]
    omega
  · have hguess : (num.log2 : Int) - den.log2 - 53 = -(p : Int) := by omega
    have hup : (-(p : Int)).toNat = 0 := by omega
    have hdown : (- -(p : Int)).toNat = p := by omega
    have hnarrow : ¬ 2 * implicitBit * den * 1 ≤ num * Nat.pow 2 p := by
      rw [Nat.mul_one, Nat.mul_assoc]
      omega
    rw [hguess, hup, hdown, hone, if_neg hnarrow]
    omega

end Filled

/-! ### Halves to even -/

/-- An integer nearest to a quotient; of two that are equally near, the even one. -/
structure Rounds (a b m : Nat) : Prop where
  low : 2 * (m * b) ≤ 2 * a + b
  high : 2 * a ≤ 2 * (m * b) + b
  odd : m % 2 = 1 → 2 * (m * b) < 2 * a + b ∧ 2 * a < 2 * (m * b) + b

theorem rounds_halfEven (hb : 0 < b) : Rounds a b (halfEven a b) := by
  have hsplit : a / b * b + a % b = a := Nat.div_add_mod' a b
  have hlt : a % b < b := Nat.mod_lt a hb
  have hnext : (a / b + 1) * b = a / b * b + b := Nat.succ_mul ..
  unfold halfEven
  dsimp only
  split
  · constructor <;> omega
  · split
    · constructor <;> omega
    · rcases Nat.mod_two_eq_zero_or_one (a / b) with heven | hodd
      · rw [heven, Nat.add_zero]
        constructor <;> omega
      · rw [hodd]
        constructor <;> omega

theorem Rounds.eq_halfEven (h : Rounds a b m) (hb : 0 < b) : halfEven a b = m := by
  have hsplit : a / b * b + a % b = a := Nat.div_add_mod' a b
  have hlt : a % b < b := Nat.mod_lt a hb
  have hnext : (a / b + 1) * b = a / b * b + b := Nat.succ_mul ..
  obtain ⟨hlow, hhigh, hodd⟩ := h
  have hge : a / b ≤ m := by
    refine Nat.not_lt.1 fun hm => ?_
    have := Nat.mul_le_mul_right b (show m + 1 ≤ a / b from hm)
    rw [Nat.succ_mul] at this
    omega
  have hle : m ≤ a / b + 1 := by
    refine Nat.not_lt.1 fun hm => ?_
    have := Nat.mul_le_mul_right b (show a / b + 1 + 1 ≤ m from hm)
    rw [Nat.succ_mul, hnext] at this
    omega
  unfold halfEven
  dsimp only
  rcases Nat.eq_or_lt_of_le hge with rfl | hgt
  · split
    · rfl
    · split <;> omega
  · obtain rfl : m = a / b + 1 := by omega
    rw [hnext] at hlow hhigh hodd
    split
    · omega
    · split <;> omega

theorem Rounds.mul_right (h : Rounds a b m) {c : Nat} (hc : 0 < c) : Rounds (a * c) (b * c) m := by
  have hleft : (2 * (m * b)) * c = 2 * (m * (b * c)) := by rw [Nat.mul_assoc, Nat.mul_assoc m]
  have hsum : ∀ x, (2 * x + b) * c = 2 * (x * c) + b * c := fun x => by
    rw [Nat.add_mul, Nat.mul_assoc]
  have hhigh : (2 * (m * b) + b) * c = 2 * (m * (b * c)) + b * c := by rw [hsum, Nat.mul_assoc m]
  have ha : (2 * a) * c = 2 * (a * c) := Nat.mul_assoc ..
  refine ⟨?_, ?_, fun hodd => ?_⟩
  · rw [← hleft, ← hsum]
    exact Nat.mul_le_mul_right c h.low
  · rw [← hhigh, ← ha]
    exact Nat.mul_le_mul_right c h.high
  · obtain ⟨hlow, hhigh'⟩ := h.odd hodd
    rw [← hhigh, ← hleft, ← hsum, ← ha]
    exact ⟨Nat.mul_lt_mul_of_pos_right hlow hc, Nat.mul_lt_mul_of_pos_right hhigh' hc⟩

/-! ### Doubles by their significands -/

/-- The fields of a number with the sign bit clear. -/
theorem fields_ofNat {b f : Nat} (hb : b < 2048) (hf : f < implicitBit) :
    (Double.mk (UInt64.ofNat (b * implicitBit + f))).biased = b ∧
      (Double.mk (UInt64.ofNat (b * implicitBit + f))).fraction = f ∧
      (Double.mk (UInt64.ofNat (b * implicitBit + f))).isNegative = false := by
  have himplicit : implicitBit = 4503599627370496 := rfl
  have hpow : 2 ^ 52 = 4503599627370496 := rfl
  rw [himplicit] at hf ⊢
  have hbits : (UInt64.ofNat (b * 4503599627370496 + f)).toNat = b * 4503599627370496 + f := by
    refine UInt64.toNat_ofNat_of_lt ?_
    have hsize : UInt64.size = 18446744073709551616 := rfl
    omega
  refine ⟨?_, ?_, ?_⟩
  · unfold biased
    have hmask : (0x7ff : UInt64).toNat = 2 ^ 11 - 1 := rfl
    have hshift : (52 : UInt64).toNat % 64 = 52 := rfl
    rw [UInt64.toNat_and, UInt64.toNat_shiftRight, hbits, hmask, hshift,
      Nat.and_two_pow_sub_one_eq_mod, Nat.shiftRight_eq_div_pow, hpow]
    omega
  · unfold fraction
    have hmask : (0xfffffffffffff : UInt64).toNat = 2 ^ 52 - 1 := rfl
    rw [UInt64.toNat_and, hbits, hmask, Nat.and_two_pow_sub_one_eq_mod, hpow]
    omega
  · unfold isNegative
    have hone : (1 : UInt64).toNat = 1 := rfl
    have hshift : (63 : UInt64).toNat % 64 = 63 := rfl
    have hhalf : 2 ^ 63 = 9223372036854775808 := rfl
    rw [beq_eq_false_iff_ne, ne_eq, ← UInt64.toNat_inj, UInt64.toNat_shiftRight, hbits, hshift,
      Nat.shiftRight_eq_div_pow, hhalf, hone]
    omega

/-- The double of a significand in units of a power of two. -/
def ofParts (m p : Nat) : Double := ⟨UInt64.ofNat ((1075 - p) * implicitBit + (m - implicitBit))⟩

/-- A significand of fifty-three bits, and a unit that is not among the least. -/
structure Normal (m p : Nat) : Prop where
  low : implicitBit ≤ m
  high : m < 2 * implicitBit
  unit : p ≤ 1073

namespace Normal

variable (h : Normal m p)

include h

theorem fields : (ofParts m p).biased = 1075 - p ∧ (ofParts m p).fraction = m - implicitBit ∧
    (ofParts m p).isNegative = false := by
  obtain ⟨hlow, hhigh, hunit⟩ := h
  exact fields_ofNat (by omega) (by omega)

theorem significand_eq : (ofParts m p).significand = m := by
  obtain ⟨hbiased, hfraction, -⟩ := h.fields
  have hlow := h.low
  have hunit := h.unit
  unfold significand
  rw [hbiased, hfraction, if_neg (by omega)]
  exact Nat.sub_add_cancel hlow

theorem scale_eq : (ofParts m p).scale = -(p : Int) := by
  have hunit := h.unit
  unfold scale
  rw [h.fields.1, if_neg (by omega)]
  omega

end Normal

/-- A significand of one bit more is one in the next greater unit. -/
theorem ofParts_carry (hp : p ≤ 1073) :
    ofParts (2 * implicitBit) (p + 1) = ofParts implicitBit p := by
  have himplicit : implicitBit = 0x10000000000000 := rfl
  refine congrArg (fun n => Double.mk (UInt64.ofNat n)) ?_
  rw [himplicit]
  omega

namespace Filled

variable (h : Filled num den p)

include h

theorem bounds (hm : Rounds (num * Nat.pow 2 p) den m) : implicitBit ≤ m ∧ m ≤ 2 * implicitBit := by
  have hden := h.den_pos
  obtain ⟨hlow, hhigh⟩ := h
  obtain ⟨hlow', hhigh', -⟩ := hm
  constructor
  · refine Nat.not_lt.1 fun hlt => ?_
    have := Nat.mul_le_mul_right den (show m + 1 ≤ implicitBit from hlt)
    rw [Nat.succ_mul] at this
    omega
  · refine Nat.not_lt.1 fun hlt => ?_
    have := Nat.mul_le_mul_right den (show 2 * implicitBit + 1 ≤ m from hlt)
    rw [Nat.succ_mul, Nat.mul_assoc] at this
    omega

theorem nearest_eq (hp : p ≤ 1074) (hm : Rounds (num * Nat.pow 2 p) den m) :
    nearest num den = ofParts m p := by
  have hup : (- -(p : Int)).toNat = p := by omega
  have hdown : (-(p : Int)).toNat = 0 := by omega
  have hexponent : (-(p : Int) + 1075).toNat = 1075 - p := by omega
  have hone : den * Nat.pow 2 0 = den := Nat.mul_one den
  obtain ⟨hlow, hhigh⟩ := h.bounds hm
  have hbits : (1075 - p) * implicitBit + (m - implicitBit) < infinity.bits.toNat := by
    have hmul : (1075 - p) * implicitBit ≤ 1075 * implicitBit := Nat.mul_le_mul_right _ (by omega)
    have himplicit : implicitBit = 0x10000000000000 := rfl
    have hinfinity : infinity.bits.toNat = 0x7ff0000000000000 := rfl
    omega
  unfold nearest
  rw [if_neg (Nat.ne_of_gt h.num_pos), h.unitOf_eq hp]
  dsimp only
  rw [hup, hdown, hone, hm.eq_halfEven h.den_pos, bitsOf, if_neg (Nat.not_lt.2 hlow), hexponent,
    if_pos hbits]
  rfl

end Filled

/-! ### The interval of a double -/

/-- A fraction that is rounded to the double of a significand: half a unit away at most, and a
quarter below a power of two. -/
structure Near (m p num den : Nat) : Prop where
  low : 4 * (m * den) ≤ 4 * (num * Nat.pow 2 p) + if m = implicitBit then den else 2 * den
  high : 4 * (num * Nat.pow 2 p) ≤ 4 * (m * den) + 2 * den
  odd : m % 2 = 1 → 4 * (m * den) < 4 * (num * Nat.pow 2 p) + 2 * den ∧
    4 * (num * Nat.pow 2 p) < 4 * (m * den) + 2 * den

theorem Filled.exists_near (h : Filled num den p) (hp0 : p ≠ 0) (hp : p ≤ 1073) :
    ∃ m q, q ≤ p ∧ Normal m q ∧ nearest num den = ofParts m q ∧ Near m q num den := by
  have hm := rounds_halfEven (a := num * Nat.pow 2 p) h.den_pos
  generalize halfEven (num * Nat.pow 2 p) den = m at hm
  obtain ⟨hlow, hhigh⟩ := h.bounds hm
  have heq := h.nearest_eq (by omega) hm
  obtain ⟨hlow', hhigh'⟩ := h
  rcases Nat.eq_or_lt_of_le hhigh with rfl | hlt
  · obtain ⟨q, rfl⟩ : ∃ q, p = q + 1 := ⟨p - 1, by omega⟩
    refine ⟨implicitBit, q, Nat.le_succ q, ⟨Nat.le_refl _, by decide, by omega⟩,
      heq.trans (ofParts_carry (by omega)), ?_⟩
    have hpow : num * Nat.pow 2 (q + 1) = num * Nat.pow 2 q * 2 := (Nat.mul_assoc ..).symm
    have htwice : 2 * implicitBit * den = 2 * (implicitBit * den) := Nat.mul_assoc ..
    rw [hpow] at hlow' hhigh' hm
    obtain ⟨hlow'', hhigh'', -⟩ := hm
    rw [htwice] at hlow'' hhigh''
    refine ⟨?_, by omega, fun hodd => absurd hodd (by decide)⟩
    rw [if_pos rfl]
    omega
  · refine ⟨m, p, Nat.le_refl p, ⟨hlow, hlt, hp⟩, heq, ?_⟩
    obtain ⟨hlow'', hhigh'', hodd⟩ := hm
    refine ⟨?_, by omega, fun hm => ?_⟩
    · split
      · next hmin =>
        subst hmin
        omega
      · omega
    · have := hodd hm
      omega

theorem Near.nearest_eq (h : Near m p num den) (hm : Normal m p) (hden : 0 < den) :
    nearest num den = ofParts m p := by
  have hmden : implicitBit * den ≤ m * den := Nat.mul_le_mul_right den hm.low
  have hmden' : m * den + den ≤ 2 * (implicitBit * den) := by
    have := Nat.mul_le_mul_right den (show m + 1 ≤ 2 * implicitBit from hm.high)
    rwa [Nat.succ_mul, Nat.mul_assoc] at this
  have hunit := hm.unit
  obtain ⟨hlow, hhigh, hodd⟩ := h
  rcases Nat.lt_or_ge (num * Nat.pow 2 p) (implicitBit * den) with hless | hfull
  · -- Below a power of two the unit is half as great.
    have hpow : num * Nat.pow 2 (p + 1) = num * Nat.pow 2 p * 2 := (Nat.mul_assoc ..).symm
    have hleast : m = implicitBit := by
      refine Nat.le_antisymm (Nat.not_lt.1 fun hlt => ?_) hm.low
      have := Nat.mul_le_mul_right den (show implicitBit + 1 ≤ m from hlt)
      rw [Nat.succ_mul] at this
      rw [if_neg (Nat.ne_of_gt hlt)] at hlow
      omega
    subst hleast
    rw [if_pos rfl] at hlow
    have hfilled : Filled num den (p + 1) := ⟨by rw [hpow]; omega, by rw [hpow]; omega⟩
    have htwice : 2 * implicitBit * den = 2 * (implicitBit * den) := Nat.mul_assoc ..
    have hrounds : Rounds (num * Nat.pow 2 (p + 1)) den (2 * implicitBit) := by
      rw [hpow]
      refine ⟨?_, ?_, fun hodd => absurd hodd (by decide)⟩
      · rw [htwice]
        omega
      · rw [htwice]
        omega
    exact (hfilled.nearest_eq (by omega) hrounds).trans (ofParts_carry hunit)
  · have hfilled : Filled num den p := ⟨hfull, by omega⟩
    refine hfilled.nearest_eq (by omega) ⟨?_, by omega, fun hm => ?_⟩
    · split at hlow <;> omega
    · have := hodd hm
      omega

end MachineProvider.Double
