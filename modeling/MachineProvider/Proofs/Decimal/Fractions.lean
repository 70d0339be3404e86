import MachineProvider.Proofs.Decimal.Integers

/-!
Fractions of few digits: the shortest decimal of the double nearest to one has few digits too, and
is rounded to the same double.
-/
namespace MachineProvider

namespace Double

variable {num den m p n c : Nat}

/-- A fraction below the integers that doubles tell apart has fifty-three bits in some unit. -/
theorem exists_filled {l : Nat} (hnum : num ≠ 0) (hlt : num < implicitBit * den)
    (hden : den < Nat.pow 2 l) : ∃ p, p ≠ 0 ∧ p ≤ l + 52 ∧ Filled num den p := by
  have hden0 : den ≠ 0 := by
    rintro rfl
    exact absurd hlt (Nat.not_lt_zero _)
  have hlog : den.log2 < l := (Nat.log2_lt hden0).2 hden
  have hle : num.log2 ≤ den.log2 + 52 := by
    refine Nat.le_of_lt_succ ((Nat.pow_lt_pow_iff_right (show 1 < 2 by decide)).1 ?_)
    calc 2 ^ num.log2 ≤ num := Nat.log2_self_le hnum
      _ < 2 ^ 52 * den := hlt
      _ < 2 ^ 52 * 2 ^ (den.log2 + 1) :=
        Nat.mul_lt_mul_of_pos_left Nat.lt_log2_self (Nat.two_pow_pos 52)
      _ = 2 ^ (den.log2 + 52 + 1) := by
        rw [← Nat.pow_add]
        congr 1
        omega
  obtain ⟨q, hq⟩ : ∃ q, num.log2 + q = den.log2 + 52 := ⟨den.log2 + 52 - num.log2, by omega⟩
  have hleast : implicitBit * Nat.pow 2 den.log2 ≤ num * Nat.pow 2 q := by
    calc 2 ^ 52 * 2 ^ den.log2 = 2 ^ num.log2 * 2 ^ q := by
          rw [← Nat.pow_add, ← Nat.pow_add, hq, Nat.add_comm]
      _ ≤ num * 2 ^ q := Nat.mul_le_mul_right _ (Nat.log2_self_le hnum)
  have hmost : num * Nat.pow 2 q < 2 * (implicitBit * Nat.pow 2 den.log2) := by
    calc num * 2 ^ q < 2 ^ (num.log2 + 1) * 2 ^ q :=
          Nat.mul_lt_mul_of_pos_right Nat.lt_log2_self (Nat.two_pow_pos q)
      _ = 2 * (2 ^ 52 * 2 ^ den.log2) := by
        rw [← Nat.pow_add, ← Nat.pow_add, Nat.add_right_comm, hq, Nat.pow_succ, Nat.mul_comm,
          Nat.add_comm]
  have hself : implicitBit * Nat.pow 2 den.log2 ≤ implicitBit * den :=
    Nat.mul_le_mul_left _ (Nat.log2_self_le hden0)
  have hself' : implicitBit * den < 2 * (implicitBit * Nat.pow 2 den.log2) := by
    have h := Nat.mul_lt_mul_of_pos_left (show den < Nat.pow 2 (den.log2 + 1) from Nat.lt_log2_self)
      (show 0 < implicitBit by decide)
    have hpow : Nat.pow 2 (den.log2 + 1) = 2 * Nat.pow 2 den.log2 := Nat.mul_comm ..
    rwa [hpow, Nat.mul_left_comm] at h
  have hunit : ∀ r, implicitBit * den ≤ num * Nat.pow 2 r → r ≠ 0 := by
    rintro r h rfl
    have : num * Nat.pow 2 0 = num := Nat.mul_one num
    omega
  rcases Nat.lt_or_ge (num * Nat.pow 2 q) (implicitBit * den) with hless | hfull
  · have hpow : num * Nat.pow 2 (q + 1) = num * Nat.pow 2 q * 2 := (Nat.mul_assoc ..).symm
    exact ⟨q + 1, Nat.succ_ne_zero q, by omega, by rw [hpow]; omega, by rw [hpow]; omega⟩
  · exact ⟨q, hunit q hfull, by omega, hfull, by omega⟩

theorem Near.mul_right (hc : 0 < c) : Near m p (num * c) (den * c) ↔ Near m p num den := by
  have hden : ∀ x, 4 * (x * (den * c)) = 4 * (x * den) * c := fun x => by
    rw [Nat.mul_assoc 4, Nat.mul_assoc x]
  have hnum : 4 * (num * c * Nat.pow 2 p) = 4 * (num * Nat.pow 2 p) * c := by
    rw [Nat.mul_assoc 4, Nat.mul_right_comm]
  have htwo : 2 * (den * c) = 2 * den * c := (Nat.mul_assoc ..).symm
  have hif : (if m = implicitBit then den * c else 2 * (den * c)) =
      (if m = implicitBit then den else 2 * den) * c := by
    split
    · rfl
    · exact htwo
  have hle : ∀ {x y : Nat}, x * c ≤ y * c ↔ x ≤ y := Nat.mul_le_mul_right_iff hc
  have hlt : ∀ {x y : Nat}, x * c < y * c ↔ x < y := Nat.mul_lt_mul_right hc
  constructor
  · rintro ⟨hlow, hhigh, hodd⟩
    rw [hden, hnum, hif, ← Nat.add_mul, hle] at hlow
    rw [hden, hnum, htwo, ← Nat.add_mul, hle] at hhigh
    rw [hden, hnum, htwo, ← Nat.add_mul, ← Nat.add_mul, hlt, hlt] at hodd
    exact ⟨hlow, hhigh, hodd⟩
  · rintro ⟨hlow, hhigh, hodd⟩
    refine ⟨?_, ?_, ?_⟩
    · rw [hden, hnum, hif, ← Nat.add_mul, hle]
      exact hlow
    · rw [hden, hnum, htwo, ← Nat.add_mul, hle]
      exact hhigh
    · rw [hden, hnum, htwo, ← Nat.add_mul, ← Nat.add_mul, hlt, hlt]
      exact hodd

/-- The fraction and the double are at most twice as great as the other. -/
theorem Near.close (h : Near m p num den) (hm : Normal m p) :
    m * den ≤ 2 * (num * Nat.pow 2 p) ∧ num * Nat.pow 2 p ≤ 2 * (m * den) := by
  have hden : 2 * den ≤ m * den := Nat.mul_le_mul_right den (Nat.le_trans (by decide) hm.low)
  obtain ⟨hlow, hhigh, -⟩ := h
  split at hlow <;> omega

/-- No integer shares its double with a fraction of fewer digits. -/
theorem Near.not_integer (h : Near m p num den) (hm : Normal m p) (hnum : num < implicitBit)
    (hden : 0 < den) (hdvd : ¬ den ∣ num) : ¬ Near m p n 1 := by
  intro hn
  have hpow : 0 < Nat.pow 2 p := Nat.two_pow_pos p
  have hscaled : Near m p (n * den) den := by
    have := (Near.mul_right hden).2 hn
    rwa [Nat.one_mul] at this
  have hne : num ≠ n * den := fun heq => hdvd (heq ▸ Nat.dvd_mul_left ..)
  have hunit : Nat.pow 2 p ≤ den := by
    obtain ⟨hlow, hhigh, -⟩ := h
    obtain ⟨hlow', hhigh', -⟩ := hscaled
    have hfar : num * Nat.pow 2 p + Nat.pow 2 p ≤ n * den * Nat.pow 2 p ∨
        n * den * Nat.pow 2 p + Nat.pow 2 p ≤ num * Nat.pow 2 p := by
      rw [← Nat.succ_mul, ← Nat.succ_mul]
      rcases Nat.lt_or_gt_of_ne hne with hlt | hgt
      · exact .inl (Nat.mul_le_mul_right _ hlt)
      · exact .inr (Nat.mul_le_mul_right _ hgt)
    split at hlow <;> split at hlow' <;> omega
  have hle : num * Nat.pow 2 p ≤ num * den := Nat.mul_le_mul_left num hunit
  have hmore : num * den + den ≤ m * den := by
    rw [← Nat.succ_mul]
    exact Nat.mul_le_mul_right den (Nat.le_trans hnum hm.low)
  obtain ⟨hlow, -, -⟩ := h
  split at hlow <;> omega

end Double

namespace Decimal

open Double (Normal Near ofParts implicitBit)

variable {m p n : Nat} {i : Interval}

theorem interval_ofParts (hm : Normal m p) : Interval.of (ofParts m p) =
    { low := 4 * m - if m = implicitBit then 1 else 2
      value := 4 * m
      high := 4 * m + 2
      denominator := Nat.pow 2 (p + 2)
      closed := m % 2 = 0 } := by
  obtain ⟨hbiased, hfraction, -⟩ := hm.fields
  have hunit := hm.unit
  have hone : Nat.pow 2 (-(p : Int) - 2).toNat = 1 := by
    rw [show (-(p : Int) - 2).toNat = 0 by omega]
  have hden : (2 - -(p : Int)).toNat = p + 2 := by omega
  have hnarrow : (m - implicitBit = 0 ∧ 1 < 1075 - p) ↔ m = implicitBit := by
    have hlow := hm.low
    omega
  unfold Interval.of
  simp only [hm.significand_eq, hm.scale_eq, hbiased, hfraction, hone, hden, hnarrow, Nat.mul_one]

theorem Interval.holds_iff : i.holds n = true ↔ i.low ≤ n * i.denominator ∧
    n * i.denominator ≤ i.high ∧
    (i.closed = false → i.low < n * i.denominator ∧ n * i.denominator < i.high) := by
  unfold Interval.holds
  dsimp only
  cases i.closed with
  | true => simp
  | false =>
    simp only [Bool.false_eq_true, if_false, Bool.and_eq_true, decide_eq_true_eq, true_implies]
    omega

/-- What lies in the scaled interval of a double is rounded to it. -/
theorem scaled_holds_iff (hm : Normal m p) (k : Int) (n : Nat) :
    ((Interval.of (ofParts m p)).scaleBy k).holds n = true ↔
      Near m p (n * Nat.pow 10 (-k).toNat) (Nat.pow 10 k.toNat) := by
  have hx : n * (Nat.pow 2 (p + 2) * Nat.pow 10 (-k).toNat) =
      4 * (n * Nat.pow 10 (-k).toNat * Nat.pow 2 p) := by
    have hpow : Nat.pow 2 (p + 2) = 4 * Nat.pow 2 p := by
      change Nat.pow 2 p * 2 * 2 = _
      omega
    rw [hpow, Nat.mul_assoc 4, Nat.mul_left_comm n, Nat.mul_comm (Nat.pow 2 p), Nat.mul_assoc n]
  have hbig : 4 ≤ m := Nat.le_trans (by decide) hm.low
  have heven : m = implicitBit → m % 2 = 0 := by
    rintro rfl
    rfl
  rw [Interval.holds_iff, interval_ofParts hm]
  change (4 * m - if m = implicitBit then 1 else 2) * Nat.pow 10 k.toNat ≤
      n * (Nat.pow 2 (p + 2) * Nat.pow 10 (-k).toNat) ∧
    n * (Nat.pow 2 (p + 2) * Nat.pow 10 (-k).toNat) ≤ (4 * m + 2) * Nat.pow 10 k.toNat ∧
    (decide (m % 2 = 0) = false →
      (4 * m - if m = implicitBit then 1 else 2) * Nat.pow 10 k.toNat <
        n * (Nat.pow 2 (p + 2) * Nat.pow 10 (-k).toNat) ∧
      n * (Nat.pow 2 (p + 2) * Nat.pow 10 (-k).toNat) < (4 * m + 2) * Nat.pow 10 k.toNat) ↔ _
  rw [hx, Nat.sub_mul, Nat.add_mul, Nat.mul_assoc 4, decide_eq_false_iff_not]
  have hgrid : 4 * Nat.pow 10 k.toNat ≤ m * Nat.pow 10 k.toNat := Nat.mul_le_mul_right _ hbig
  constructor
  · rintro ⟨hlow, hhigh, hodd⟩
    refine ⟨?_, hhigh, fun hm' => ?_⟩
    · split at hlow
      · next h => rw [if_pos h]; omega
      · next h => rw [if_neg h]; omega
    · have := hodd (by omega)
      rw [if_neg fun h => by have := heven h; omega] at this
      omega
  · rintro ⟨hlow, hhigh, hodd⟩
    refine ⟨?_, hhigh, fun hm' => ?_⟩
    · split at hlow
      · next h => rw [if_pos h]; omega
      · next h => rw [if_neg h]; omega
    · have := hodd (by omega)
      rw [if_neg fun h => by have := heven h; omega]
      omega

theorem scaled_bounds (hm : Normal m p) (k : Int) :
    ((Interval.of (ofParts m p)).scaleBy k).low < ((Interval.of (ofParts m p)).scaleBy k).value ∧
      ((Interval.of (ofParts m p)).scaleBy k).value < ((Interval.of (ofParts m p)).scaleBy k).high ∧
      0 < ((Interval.of (ofParts m p)).scaleBy k).denominator := by
  have hbig : 4 ≤ m := Nat.le_trans (by decide) hm.low
  have hgrid : 0 < Nat.pow 10 k.toNat := Nat.pow_pos (by decide)
  rw [interval_ofParts hm]
  refine ⟨Nat.mul_lt_mul_of_pos_right ?_ hgrid, Nat.mul_lt_mul_of_pos_right ?_ hgrid,
    Nat.mul_pos (Nat.two_pow_pos _) (Nat.pow_pos (by decide))⟩
  · dsimp only
    split <;> omega
  · dsimp only
    omega

/-! ### The grid points next to a double -/

theorem Interval.holds_of_pick (h : i.pick = some n) : i.holds n = true := by
  unfold Interval.pick at h
  dsimp only at h
  split at h
  · next h₁ h₂ =>
    split at h <;> rw [← Option.some.inj h] <;> assumption
  · next h₁ _ => rw [← Option.some.inj h]; exact h₁
  · next _ h₂ => rw [← Option.some.inj h]; exact h₂
  · cases h

/-- Where some grid point is close enough, one next to the value is. -/
theorem Interval.pick_isSome (hlow : i.low < i.value) (hhigh : i.value < i.high)
    (hden : 0 < i.denominator) (h : i.holds n = true) : i.pick.isSome := by
  have hsplit : i.value / i.denominator * i.denominator + i.value % i.denominator = i.value :=
    Nat.div_add_mod' ..
  have hlt : i.value % i.denominator < i.denominator := Nat.mod_lt _ hden
  have hnext : (i.value / i.denominator + 1) * i.denominator =
      i.value / i.denominator * i.denominator + i.denominator := Nat.succ_mul ..
  have hnear : i.holds (i.value / i.denominator) = true ∨
      i.holds (i.value / i.denominator + 1) = true := by
    rw [Interval.holds_iff] at h
    rw [Interval.holds_iff, Interval.holds_iff, hnext]
    rcases Nat.lt_or_ge (i.value / i.denominator) n with hgt | hle
    · have := Nat.mul_le_mul_right i.denominator (show i.value / i.denominator + 1 ≤ n from hgt)
      rw [hnext] at this
      exact .inr ⟨by omega, by omega, fun hc => by have := h.2.2 hc; omega⟩
    · have := Nat.mul_le_mul_right i.denominator hle
      exact .inl ⟨by omega, by omega, fun hc => by have := h.2.2 hc; omega⟩
  unfold Interval.pick
  dsimp only
  split
  · split <;> rfl
  · rfl
  · rfl
  · next h₁ h₂ =>
    rw [h₁, h₂] at hnear
    rcases hnear with h | h <;> cases h

/-! ### The leading digit -/

/-- The value of an interval is at least a power of ten. -/
def Interval.Reaches (i : Interval) (k : Int) : Prop :=
  i.denominator * Nat.pow 10 k.toNat ≤ i.value * Nat.pow 10 (-k).toNat

instance (k : Int) : Decidable (i.Reaches k) := inferInstanceAs (Decidable (_ ≤ _))

/-- The first guess at the leading exponent is right or up to two too low. -/
theorem guess_near : ∀ p < 132, ∃ g, g = Int.fdiv ((51 - (p : Nat) : Int) * 30103) 100000 ∧
    Nat.pow 2 (p + 2) * Nat.pow 10 g.toNat ≤ Nat.pow 2 54 * Nat.pow 10 (-g).toNat ∧
    Nat.pow 2 55 * Nat.pow 10 (-(g + 3)).toNat ≤ Nat.pow 2 (p + 2) * Nat.pow 10 (g + 3).toNat := by
  have h : ∀ p < 132,
      Nat.pow 2 (p + 2) * Nat.pow 10 (Int.fdiv ((51 - (p : Nat) : Int) * 30103) 100000).toNat ≤
        Nat.pow 2 54 * Nat.pow 10 (-(Int.fdiv ((51 - (p : Nat) : Int) * 30103) 100000)).toNat ∧
      Nat.pow 2 55 * Nat.pow 10 (-(Int.fdiv ((51 - (p : Nat) : Int) * 30103) 100000 + 3)).toNat ≤
        Nat.pow 2 (p + 2) *
          Nat.pow 10 (Int.fdiv ((51 - (p : Nat) : Int) * 30103) 100000 + 3).toNat := by
    decide +kernel
  exact fun p hp => ⟨_, rfl, h p hp⟩

theorem magnitude_spec (hm : Normal m p) (hp : p < 132) :
    (Interval.of (ofParts m p)).Reaches (Interval.of (ofParts m p)).magnitude ∧
      ¬ (Interval.of (ofParts m p)).Reaches ((Interval.of (ofParts m p)).magnitude + 1) := by
  obtain ⟨g, hg, hlow, hhigh⟩ := guess_near p hp
  have hvalue : (4 * m).log2 = 54 := by
    have hlow := hm.low
    have hhigh := hm.high
    have himplicit : implicitBit = 0x10000000000000 := rfl
    exact (Nat.log2_eq_iff (by omega)).2 ⟨by omega, by omega⟩
  have hden : (Nat.pow 2 (p + 2)).log2 = p + 2 := Nat.log2_two_pow
  have hbits : ((4 * m).log2 : Int) - (Nat.pow 2 (p + 2)).log2 - 1 = 51 - (p : Int) := by
    rw [hvalue, hden]
    omega
  rw [interval_ofParts hm]
  generalize hi : (Interval.mk (4 * m - if m = implicitBit then 1 else 2) (4 * m) (4 * m + 2)
    (Nat.pow 2 (p + 2)) (decide (m % 2 = 0))) = i
  have hreaches : i.Reaches g := by
    subst hi
    refine Nat.le_trans hlow (Nat.mul_le_mul_right _ ?_)
    exact Nat.mul_le_mul_left 4 hm.low
  have hbeyond : ¬ i.Reaches (g + 3) := by
    subst hi
    refine Nat.not_le.2 (Nat.lt_of_lt_of_le ?_ hhigh)
    refine Nat.mul_lt_mul_of_pos_right ?_ (Nat.pow_pos (by decide))
    exact Nat.mul_lt_mul_of_pos_left hm.high (show 0 < 4 by decide)
  have hmagnitude : i.magnitude =
      if i.Reaches ((if i.Reaches (g + 1) then g + 1 else g) + 1) then
        (if i.Reaches (g + 1) then g + 1 else g) + 1
      else if i.Reaches (g + 1) then g + 1 else g := by
    subst hi
    unfold Interval.magnitude
    dsimp only
    rw [hbits, ← hg]
    simp only [decide_eq_true_eq]
    rfl
  rw [hmagnitude]
  by_cases h₁ : i.Reaches (g + 1)
  · rw [if_pos h₁]
    by_cases h₂ : i.Reaches (g + 1 + 1)
    · rw [if_pos h₂]
      have hthree : g + 1 + 1 + 1 = g + 3 := by omega
      exact ⟨h₂, hthree ▸ hbeyond⟩
    · rw [if_neg h₂]
      exact ⟨h₁, h₂⟩
  · rw [if_neg h₁, if_neg h₁]
    exact ⟨hreaches, h₁⟩

theorem pow_ten_pos (k : Nat) : 0 < Nat.pow 10 k := Nat.pow_pos (by decide)

/-- The exponent of a power that is reached, as a difference. -/
theorem reaches_iff (hm : Normal m p) (t k : Nat) :
    (Interval.of (ofParts m p)).Reaches ((t : Int) - k) ↔
      Nat.pow 2 p * Nat.pow 10 t ≤ m * Nat.pow 10 k := by
  have hpow : Nat.pow 2 (p + 2) = 4 * Nat.pow 2 p := by
    change Nat.pow 2 p * 2 * 2 = _
    omega
  have hshift : ∀ i j s : Nat, Nat.pow 2 (p + 2) * Nat.pow 10 i ≤ 4 * m * Nat.pow 10 j ↔
      Nat.pow 2 p * Nat.pow 10 (i + s) ≤ m * Nat.pow 10 (j + s) := fun i j s => by
    have hadd : ∀ x i : Nat,
        x * Nat.pow 10 (i + s) = x * Nat.pow 10 i * Nat.pow 10 s := fun x i => by
      rw [Nat.mul_assoc]
      exact congrArg (x * ·) (Nat.pow_add 10 i s)
    rw [hpow, Nat.mul_assoc, Nat.mul_assoc, Nat.mul_le_mul_left_iff (by decide), hadd, hadd]
    exact (Nat.mul_le_mul_right_iff (pow_ten_pos s)).symm
  rw [interval_ofParts hm]
  rcases Nat.le_total t k with hle | hle
  · obtain ⟨s, rfl⟩ := Nat.exists_eq_add_of_le' hle
    refine (hshift _ _ t).trans ?_
    rw [show ((t : Int) - (s + t : Nat)).toNat + t = t by omega,
      show (-((t : Int) - (s + t : Nat))).toNat + t = s + t by omega]
  · obtain ⟨s, rfl⟩ := Nat.exists_eq_add_of_le' hle
    refine (hshift _ _ k).trans ?_
    rw [show (((s + k : Nat) : Int) - k).toNat + k = s + k by omega,
      show (-(((s + k : Nat) : Int) - k)).toNat + k = k by omega]

/-! ### The shortest decimal of a fraction -/

/-- A decimal with a fraction of few digits that is rounded to the double of a significand. -/
structure Few (m p : Nat) (d : Decimal) : Prop where
  exponent : ∃ j : Nat, d.exponent = -(j : Int) ∧ 0 < j ∧ j ≤ 22 ∧ Near m p d.digits (Nat.pow 10 j)
  digits_lt : d.digits < Nat.pow 2 53

/-- A grid of powers of ten that is fine enough for a double. -/
structure Grid (m p n k : Nat) : Prop where
  near : Near m p n (Nat.pow 10 k)
  small : n < implicitBit
  fraction : ¬ Nat.pow 10 k ∣ n
  exponent_le : k ≤ 22

variable {k j c : Nat}

/-- Numerators on coarser grids are not much greater. -/
theorem Grid.numerator_le (h : Grid m p n k) (hm : Normal m p) (hj : j ≤ k)
    (hc : Near m p c (Nat.pow 10 j)) : c ≤ 2 * n := by
  have hclose := (h.near.close hm).1
  have hbig : 2 * Nat.pow 10 k ≤ m * Nat.pow 10 k :=
    Nat.mul_le_mul_right _ (Nat.le_trans (by decide) hm.low)
  have hgrid : Nat.pow 10 j ≤ Nat.pow 10 k := Nat.pow_le_pow_right (by decide) hj
  have hgrid' : m * Nat.pow 10 j ≤ m * Nat.pow 10 k := Nat.mul_le_mul_left m hgrid
  have hlow := h.near.low
  have hhigh := hc.high
  refine Nat.le_of_mul_le_mul_right ?_ (Nat.two_pow_pos p)
  change c * Nat.pow 2 p ≤ 2 * n * Nat.pow 2 p
  rw [Nat.mul_assoc]
  split at hlow <;> omega

/-- What is found on a coarser grid is written with few digits. -/
theorem Grid.few_of_pick (h : Grid m p n k) (hm : Normal m p) {e : Int} (he : -(k : Int) ≤ e)
    (hc : ((Interval.of (ofParts m p)).scaleBy (-e)).pick = some c) :
    Few m p (if c % 10 = 0 then ⟨c / 10, e + 1⟩ else ⟨c, e⟩) := by
  have hinteger : ∀ x, ¬ Near m p x 1 := fun x =>
    h.near.not_integer hm h.small (pow_ten_pos k) h.fraction
  have hnear := (scaled_holds_iff hm (-e) c).1 (Interval.holds_of_pick hc)
  rcases Int.lt_or_le e 0 with hneg | hpos
  · obtain ⟨j, rfl⟩ : ∃ j : Nat, e = -((j + 1 : Nat) : Int) := ⟨(-e - 1).toNat, by omega⟩
    have hup : (- -((j + 1 : Nat) : Int)).toNat = j + 1 := by omega
    have hdown : (- - -((j + 1 : Nat) : Int)).toNat = 0 := by omega
    have hone : c * Nat.pow 10 0 = c := Nat.mul_one c
    rw [hup, hdown, hone] at hnear
    have hle := h.numerator_le hm (by omega) hnear
    have hsmall := h.small
    have himplicit : Nat.pow 2 53 = 2 * implicitBit := rfl
    have hk := h.exponent_le
    split
    · next hcarry =>
      have hten : c / 10 * 10 = c := Nat.div_mul_cancel (Nat.dvd_of_mod_eq_zero hcarry)
      have hpow : Nat.pow 10 (j + 1) = Nat.pow 10 j * 10 := rfl
      rw [← hten, hpow, Double.Near.mul_right (by decide)] at hnear
      cases j with
      | zero => exact absurd hnear (hinteger _)
      | succ j =>
        exact ⟨⟨j + 1, by dsimp only; omega, by omega, by omega, hnear⟩, by dsimp only; omega⟩
    · exact ⟨⟨j + 1, rfl, by omega, by omega, hnear⟩, by dsimp only; omega⟩
  · have hup : (-e).toNat = 0 := by omega
    rw [hup] at hnear
    exact absurd hnear (hinteger _)

/-- A fraction above the leading digit of its double is a power of ten that is rounded down. -/
theorem eq_one_of_beyond (hm : Normal m p) (h : Near m p n (Nat.pow 10 k)) (hn : n ≠ 0) {r : Nat}
    (hbeyond : ¬ (Interval.of (ofParts m p)).Reaches (((0 : Nat) : Int) - (k + r : Nat))) :
    n = 1 ∧ r = 0 := by
  have hpow : Nat.pow 2 p * Nat.pow 10 0 = Nat.pow 2 p := Nat.mul_one _
  rw [reaches_iff hm, hpow, Nat.not_le] at hbeyond
  have hlt : n * Nat.pow 10 r < 2 := by
    refine Nat.lt_of_mul_lt_mul_right (a := Nat.pow 2 p) ?_
    calc n * Nat.pow 10 r * Nat.pow 2 p = n * Nat.pow 2 p * Nat.pow 10 r := Nat.mul_right_comm ..
      _ ≤ 2 * (m * Nat.pow 10 k) * Nat.pow 10 r := Nat.mul_le_mul_right _ (h.close hm).2
      _ = 2 * (m * Nat.pow 10 (k + r)) := by
        rw [Nat.mul_assoc, Nat.mul_assoc]
        exact congrArg (fun x => 2 * (m * x)) (Nat.pow_add 10 k r).symm
      _ < 2 * Nat.pow 2 p := Nat.mul_lt_mul_of_pos_left hbeyond (by decide)
  have hr : r = 0 := by
    refine Nat.eq_zero_of_not_pos fun hr => ?_
    have hten : Nat.pow 10 1 ≤ Nat.pow 10 r := Nat.pow_le_pow_right (by decide) hr
    have := Nat.mul_le_mul (Nat.one_le_iff_ne_zero.2 hn) hten
    change 1 * 10 ≤ _ at this
    omega
  subst hr
  rw [show n * Nat.pow 10 0 = n from Nat.mul_one n] at hlt
  exact ⟨by omega, rfl⟩

/-- A fraction has as many digits as its double has on the same grid. -/
theorem digits_lt_of_reaches (hm : Normal m p) (h : Near m p n (Nat.pow 10 k))
    (hn : n < implicitBit) {t : Nat}
    (hreaches : (Interval.of (ofParts m p)).Reaches ((t : Int) - k)) : t < 17 := by
  rw [reaches_iff hm] at hreaches
  have hle : Nat.pow 10 t ≤ 2 * n := by
    refine Nat.le_of_mul_le_mul_left ?_ (show 0 < Nat.pow 2 p from Nat.two_pow_pos p)
    rw [Nat.mul_left_comm, Nat.mul_comm (Nat.pow 2 p) n]
    exact Nat.le_trans hreaches (h.close hm).1
  have hsmall : 2 * implicitBit < Nat.pow 10 17 := by decide
  exact (Nat.pow_lt_pow_iff_right (show 1 < 10 by decide)).1
    (show Nat.pow 10 t < Nat.pow 10 17 by omega)

/-- The leading digit of a double next to a fraction stands on a grid with the fraction, or right
above it. -/
theorem exists_grid (hm : Normal m p) (hp : p < 132) (h : Near m p n (Nat.pow 10 k))
    (hn : n < implicitBit) (hk : k ≤ 21) (hdvd : ¬ Nat.pow 10 k ∣ n) :
    ∃ n' k' t : Nat, Grid m p n' k' ∧ t < 17 ∧
      (Interval.of (ofParts m p)).magnitude - t = -(k' : Int) := by
  obtain ⟨hreaches, hbeyond⟩ := magnitude_spec hm hp
  generalize (Interval.of (ofParts m p)).magnitude = top at hreaches hbeyond
  rcases Int.lt_or_le (top + k) 0 with hneg | hpos
  · obtain ⟨r, rfl⟩ : ∃ r : Nat, top = ((0 : Nat) : Int) - (k + r : Nat) - 1 :=
      ⟨(-top - k - 1).toNat, by omega⟩
    have hn0 : n ≠ 0 := by
      rintro rfl
      exact hdvd (Nat.dvd_zero _)
    rw [Int.sub_add_cancel] at hbeyond
    obtain ⟨rfl, rfl⟩ := eq_one_of_beyond hm h hn0 hbeyond
    have hten : Nat.pow 10 (k + 1) = Nat.pow 10 k * 10 := rfl
    have hnear : Near m p (1 * 10) (Nat.pow 10 k * 10) := (Double.Near.mul_right (by decide)).2 h
    have hdvd' : ¬ Nat.pow 10 (k + 1) ∣ 1 * 10 := fun hd =>
      hdvd (Nat.dvd_of_mul_dvd_mul_right (show 0 < 10 by decide) (hten ▸ hd))
    exact ⟨10, k + 1, 0, ⟨hnear, by decide, hdvd', by omega⟩, by decide, by omega⟩
  · obtain ⟨t, rfl⟩ : ∃ t : Nat, top = (t : Int) - k := ⟨(top + k).toNat, by omega⟩
    exact ⟨n, k, t, ⟨h, hn, hdvd, by omega⟩, digits_lt_of_reaches hm h hn hreaches, by omega⟩

theorem few_shortest (hm : Normal m p) (hp : p < 132) (h : Near m p n (Nat.pow 10 k))
    (hn : n < implicitBit) (hk : k ≤ 21) (hdvd : ¬ Nat.pow 10 k ∣ n) :
    Few m p (shortest (ofParts m p)) := by
  obtain ⟨n', k', t, hgrid, ht, htop⟩ := exists_grid hm hp h hn hk hdvd
  have hzero : (ofParts m p).isZero = false := by
    have hunit := hm.unit
    rw [Double.isZero, hm.fields.1, beq_eq_false_iff_ne.2 (by omega)]
    rfl
  unfold shortest
  rw [hzero, if_neg Bool.false_ne_true]
  dsimp only
  refine getD_findSome?_range ht ?_ fun x hx r hr => ?_
  · rw [htop, Option.isSome_map]
    have hup : (- -(k' : Int)).toNat = k' := by omega
    have hdown : (- - -(k' : Int)).toNat = 0 := by omega
    have hone : n' * Nat.pow 10 0 = n' := Nat.mul_one n'
    obtain ⟨hlow, hhigh, hden⟩ := scaled_bounds hm (- -(k' : Int))
    refine Interval.pick_isSome hlow hhigh hden ((scaled_holds_iff hm _ n').2 ?_)
    rw [hup, hdown, hone]
    exact hgrid.near
  · obtain ⟨c, hc, rfl⟩ := Option.map_eq_some_iff.1 hr
    exact hgrid.few_of_pick hm (by omega) hc

end Decimal

namespace Double

open Decimal (Few)

variable {n k c : Nat}

/-- A fraction as it is written with a point: digits that are a small number, and not an integer. -/
structure Fraction (n k : Nat) : Prop where
  small : n < implicitBit
  places : k ≤ 21
  broken : ¬ Nat.pow 10 k ∣ n

namespace Fraction

variable (h : Fraction n k)

include h

theorem ne_zero : n ≠ 0 := by
  rintro rfl
  exact h.broken (Nat.dvd_zero _)

theorem exists_filled : ∃ p, p ≠ 0 ∧ p < 131 ∧ Filled n (Nat.pow 10 k) p := by
  have hden : Nat.pow 10 k < Nat.pow 2 70 :=
    Nat.lt_of_le_of_lt (Nat.pow_le_pow_right (by decide) h.places) (by decide)
  have hlt : n < implicitBit * Nat.pow 10 k :=
    Nat.lt_of_lt_of_le h.small (Nat.le_mul_of_pos_right _ (Decimal.pow_ten_pos k))
  obtain ⟨p, hp0, hp, hfilled⟩ := Double.exists_filled h.ne_zero hlt hden
  exact ⟨p, hp0, by omega, hfilled⟩

/-- The shortest decimal of the double nearest to a fraction has few digits as well. -/
theorem exists_few : ∃ m p, Normal m p ∧ nearest n (Nat.pow 10 k) = ofParts m p ∧
    Few m p (Decimal.shortest (ofParts m p)) := by
  obtain ⟨p, hp0, hp, hfilled⟩ := h.exists_filled
  obtain ⟨m, q, hq, hm, heq, hnear⟩ := hfilled.exists_near hp0 (by omega)
  exact ⟨m, q, hm, heq, Decimal.few_shortest hm (by omega) hnear h.small h.places h.broken⟩

theorem ofDecimal_eq : ofDecimal n (-(k : Int)) = nearest n (Nat.pow 10 k) := by
  have hlen : (Nat.toDigits 10 n).length ≤ 16 :=
    (Nat.length_toDigits_le_iff (by decide) (by decide)).2 (Nat.lt_trans h.small (by decide))
  have hplaces := h.places
  have hup : (-(k : Int)).toNat = 0 := by omega
  have hdown : (- -(k : Int)).toNat = k := by omega
  have hone : n * Nat.pow 10 0 = n := Nat.mul_one n
  unfold ofDecimal
  dsimp only
  rw [if_neg (by have := h.ne_zero; omega), if_neg (by omega), hup, hdown, hone]

end Fraction

/-- Only the ratio of a fraction counts. -/
theorem Filled.nearest_mul_right {num den p : Nat} (h : Filled num den p) (hp : p ≤ 1074)
    (hc : 0 < c) : nearest (num * c) (den * c) = nearest num den := by
  have hfilled : Filled (num * c) (den * c) p := by
    refine ⟨?_, ?_⟩
    · rw [Nat.mul_right_comm, ← Nat.mul_assoc]
      exact Nat.mul_le_mul_right c h.low
    · rw [Nat.mul_right_comm, ← Nat.mul_assoc, ← Nat.mul_assoc]
      have := Nat.mul_lt_mul_of_pos_right h.high hc
      rwa [← Nat.mul_assoc] at this
  have hm := rounds_halfEven (a := num * Nat.pow 2 p) h.den_pos
  have hm' := hm.mul_right hc
  rw [Nat.mul_right_comm] at hm'
  rw [h.nearest_eq hp hm, hfilled.nearest_eq hp hm']

/-- Powers of ten that doubles hold. -/
theorem power_eq : ∀ k ≤ 22, (ofDecimal 1 (k : Nat)).numerator =
    Nat.pow 10 k * (ofDecimal 1 (k : Nat)).denominator := by
  decide +kernel

/-- A quotient of numbers that doubles hold is rounded once. -/
theorem dividedBy_power (hn : n < Nat.pow 2 53) (hn0 : n ≠ 0) (hk0 : k ≠ 0) (hk : k ≤ 22) :
    (ofNat n).dividedBy (ofDecimal 1 k) = nearest n (Nat.pow 10 k) := by
  have hnumerator : (ofNat n).numerator = n * Nat.pow 2 (room n) := by
    unfold numerator ofNat
    rw [significand_nat hn0 hn, scale_nat hn0 hn, show (-(room n : Int)).toNat = 0 by omega]
    exact Nat.mul_one _
  have hdenominator : (ofNat n).denominator = Nat.pow 2 (room n) := by
    unfold denominator ofNat
    rw [scale_nat hn0 hn, show (- -(room n : Int)).toNat = room n by omega]
  have hten : Nat.pow 10 1 ≤ Nat.pow 10 k := Nat.pow_le_pow_right (by decide) (by omega)
  have hlt : n < implicitBit * Nat.pow 10 k := by
    have hmul := Nat.mul_le_mul_left implicitBit hten
    have hpow : Nat.pow 2 53 ≤ implicitBit * Nat.pow 10 1 := by decide
    omega
  have hden : Nat.pow 10 k < Nat.pow 2 74 :=
    Nat.lt_of_le_of_lt (Nat.pow_le_pow_right (by decide) hk) (by decide)
  obtain ⟨p, -, hp, hfilled⟩ := Double.exists_filled hn0 hlt hden
  have hpos : 0 < Nat.pow 2 (room n) * (ofDecimal 1 k).denominator :=
    Nat.mul_pos (Nat.two_pow_pos _) (Nat.two_pow_pos _)
  have hratio := hfilled.nearest_mul_right (by omega) hpos
  unfold dividedBy
  rw [hnumerator, hdenominator, power_eq k hk, ← hratio, Nat.mul_assoc,
    Nat.mul_left_comm (Nat.pow 10 k)]

end Double

end MachineProvider
