import Mathlib.Data.List.Basic

/-! Decimal numerals: what a text of digits is worth, and the one text without zeros in front. -/
namespace MachineProvider.Text

variable {n : Nat}

/-- At least one decimal digit, and what the digits are worth. Zeros may stand in front. -/
structure Digits (cs : List Char) (n : Nat) : Prop where
  ne_nil : cs ≠ []
  digits : ∀ c ∈ cs, '0' ≤ c ∧ c ≤ '9'
  value : Nat.ofDigitChars 10 cs 0 = n

/-- A number's digits without a zero in front, unless it is the only one. -/
structure Numeral (text : String) (n : Nat) : Prop extends Digits text.toList n where
  lead : text.toList.head? = some '0' → text = "0"

theorem isDigit_iff {c : Char} : c.isDigit = true ↔ '0' ≤ c ∧ c ≤ '9' := by
  unfold Char.isDigit
  rw [Bool.and_eq_true, decide_eq_true_eq, decide_eq_true_eq]
  rfl

theorem head?_toDigits (h : (Nat.toDigits 10 n).head? = some '0') : n = 0 := by
  induction n using Nat.strongRecOn with
  | ind n ih =>
    by_cases hn : n < 10
    · rw [Nat.toDigits_of_lt_base hn] at h
      have hdigit : n.digitChar = '0' := Option.some.inj h
      rw [← Nat.toNat_digitChar_sub_48_of_lt_ten hn, hdigit]
      rfl
    · rw [Nat.toDigits_of_base_le (by decide) (Nat.le_of_not_lt hn),
        List.head?_append_of_ne_nil _ Nat.toDigits_ne_nil] at h
      have hzero := ih (n / 10) (by omega) h
      omega

theorem numeral_toString (n : Nat) : Numeral (toString n) n := by
  have htext : (toString n).toList = Nat.toDigits 10 n := by
    rw [Nat.toString_eq_repr, Nat.toList_repr]
  refine ⟨⟨?_, fun c hc => ?_, ?_⟩, fun hlead => ?_⟩
  · rw [htext]
    exact Nat.toDigits_ne_nil
  · rw [htext] at hc
    exact isDigit_iff.1 (Nat.isDigit_of_mem_toDigits (by decide) (by decide) hc)
  · rw [htext, Nat.ofDigitChars_ten_toDigits]
  · rw [htext] at hlead
    rw [head?_toDigits hlead]
    rfl

end MachineProvider.Text
