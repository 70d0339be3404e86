import MachineProvider.Proofs.Jsonnet.Documents
import MachineProvider.Proofs.Jsonnet.Numbers

/-!
The printed text of a number is JSON again, if the number is finite; an integer that doubles hold is
read as itself.
-/
namespace MachineProvider.Jsonnet

open Json.Parser (digits? digitsOf natOf number? unsigned?)

variable {cs ds fs rest : List Char} {c : Char} {negative : Bool} {k fuel : Nat}

/-! ### Digits and a point -/

/-- Digits, and perhaps more behind a point. -/
inductive PlainDigits : List Char → Prop where
  | whole (ds : List Char) (hne : ds ≠ []) (hds : ∀ c ∈ ds, isDigit c = true) : PlainDigits ds
  | pointed (ds fs : List Char) (hne : ds ≠ []) (hds : ∀ c ∈ ds, isDigit c = true) (hne' : fs ≠ [])
      (hfs : ∀ c ∈ fs, isDigit c = true) : PlainDigits (ds ++ '.' :: fs)

theorem isDigit_eq : c.isDigit = isDigit c := by
  unfold Char.isDigit isDigit
  simp only [Char.le_def, ge_iff_le]

theorem isDigit_digitText (n : Nat) : ∀ c ∈ Decimal.digitText n, isDigit c = true := fun c hc =>
  isDigit_eq ▸ Nat.isDigit_of_mem_toDigits (by decide) (by decide) hc

theorem isDigit_zeros (n : Nat) : ∀ c ∈ Decimal.zeros n, isDigit c = true := fun c hc => by
  rw [List.eq_of_mem_replicate hc]
  rfl

/-- Below the integers, all digits stand around the point, with zeros in front to reach it. -/
theorem exists_pointed (d : Decimal) {j : Nat} (hj : d.exponent = -((j + 1 : Nat) : Int)) :
    ∃ ds fs, d.plain.toList = ds ++ '.' :: fs ∧ ds ≠ [] ∧ fs.length = j + 1 ∧
      ds ++ fs = Decimal.zeros (j + 2 - (Decimal.digitText d.digits).length) ++
        Decimal.digitText d.digits := by
  have hplaces : (-d.exponent).toNat = j + 1 := by omega
  unfold Decimal.plain Decimal.positional
  dsimp only
  rw [if_neg (by omega), hplaces]
  generalize hpadded : Decimal.zeros (j + 1 + 1 - (Decimal.digitText d.digits).length) ++
    Decimal.digitText d.digits = padded
  have hlen : j + 2 ≤ padded.length := by
    rw [← hpadded, List.length_append, Decimal.zeros, List.length_replicate]
    omega
  have hdrop : (padded.drop (padded.length - (j + 1))).length = j + 1 := by
    rw [List.length_drop]
    omega
  have hwhole : padded.take (padded.length - (j + 1)) ≠ [] := by
    rw [← List.length_pos_iff, List.length_take]
    omega
  rw [List.splitAt_eq]
  obtain ⟨c, fs, hcons⟩ := List.exists_cons_of_length_eq_add_one hdrop
  refine ⟨_, c :: fs, ?_, hwhole, hcons ▸ hdrop, ?_⟩
  · rw [hcons]
    dsimp only
    rw [String.toList_ofList]
  · rw [← hcons]
    exact List.take_append_drop ..

theorem plainDigits_plain (d : Decimal) : PlainDigits d.plain.toList := by
  by_cases he : 0 ≤ d.exponent
  · have hne : Decimal.digitText d.digits ≠ [] := Nat.toDigits_ne_nil
    unfold Decimal.plain Decimal.positional
    dsimp only
    rw [if_pos he]
    dsimp only
    rw [String.toList_ofList]
    refine .whole _ (by simp [hne]) fun c hc => ?_
    rcases List.mem_append.1 hc with hc | hc
    · exact isDigit_digitText _ c hc
    · exact isDigit_zeros _ c hc
  · obtain ⟨j, hj⟩ : ∃ j : Nat, d.exponent = -((j + 1 : Nat) : Int) :=
      ⟨(-d.exponent - 1).toNat, by omega⟩
    obtain ⟨ds, fs, htext, hne, hlen, hall⟩ := exists_pointed d hj
    have hdigits : ∀ c ∈ ds ++ fs, isDigit c = true := fun c hc => by
      rw [hall] at hc
      rcases List.mem_append.1 hc with hc | hc
      · exact isDigit_zeros _ c hc
      · exact isDigit_digitText _ c hc
    obtain ⟨hds, hfs⟩ := List.forall_mem_append.1 hdigits
    rw [htext]
    exact .pointed _ _ hne hds (List.ne_nil_of_length_eq_add_one hlen) hfs

theorem digits_append (hne : ds ≠ []) (hds : ∀ c ∈ ds, isDigit c = true)
    (hr : ∀ c r, rest = c :: r → isDigit c = false) :
    digits? (ds ++ rest) = some (digitsOf ds, rest) := by
  have hds' : ∀ c ∈ ds, Json.Parser.isDigit c = true := hds
  have htake : (ds ++ rest).takeWhile Json.Parser.isDigit = ds := by
    rw [List.takeWhile_append_of_pos hds']
    cases rest with
    | nil => simp
    | cons c r =>
      have hc : ¬ Json.Parser.isDigit c = true := by
        change ¬ isDigit c = true
        rw [hr c r rfl]
        exact Bool.false_ne_true
      rw [List.takeWhile_cons, if_neg hc, List.append_nil]
  have hdrop : (ds ++ rest).dropWhile Json.Parser.isDigit = rest := by
    rw [List.dropWhile_append_of_pos hds']
    cases rest with
    | nil => rfl
    | cons c r =>
      have hc : ¬ Json.Parser.isDigit c = true := by
        change ¬ isDigit c = true
        rw [hr c r rfl]
        exact Bool.false_ne_true
      rw [List.dropWhile_cons, if_neg hc]
  unfold digits?
  rw [htake, hdrop]
  cases ds with
  | nil => exact absurd rfl hne
  | cons d ds => rfl

theorem Closed.not_digit (h : Closed rest) : ∀ c r, rest = c :: r → isDigit c = false := by
  rintro c r rfl
  have := h.ends.1
  unfold isWordChar at this
  exact (Bool.or_eq_false_iff.1 this).2

theorem unsigned_whole (negative : Bool) (hne : ds ≠ []) (hds : ∀ c ∈ ds, isDigit c = true)
    (hr : Closed rest) :
    unsigned? negative (ds ++ rest) =
      if (digitsOf ds).head? == some 0 && decide (1 < (digitsOf ds).length) then none
      else (number? negative (digitsOf ds) [] none true).map fun n => (n, rest) := by
  unfold unsigned?
  rw [digits_append hne hds hr.not_digit]
  simp only [Option.bind_eq_bind, Option.bind_some]
  split
  · rfl
  · cases rest with
    | nil => rw [Option.map_eq_bind]; rfl
    | cons c r =>
      obtain ⟨-, hpoint, he, hE, -⟩ := hr.ends
      split
      · next heq => exact absurd (List.cons.inj heq).1 hpoint
      · split
        · next heq => exact absurd (List.cons.inj heq).1 he
        · next heq => exact absurd (List.cons.inj heq).1 hE
        · rw [Option.map_eq_bind]
          rfl

theorem unsigned_pointed (negative : Bool) (hne : ds ≠ []) (hds : ∀ c ∈ ds, isDigit c = true)
    (hne' : fs ≠ []) (hfs : ∀ c ∈ fs, isDigit c = true) (hr : Closed rest) :
    unsigned? negative (ds ++ '.' :: fs ++ rest) =
      if (digitsOf ds).head? == some 0 && decide (1 < (digitsOf ds).length) then none
      else (number? negative (digitsOf ds) (digitsOf fs) none false).map fun n => (n, rest) := by
  have hpoint : ∀ c r, '.' :: (fs ++ rest) = c :: r → isDigit c = false := by
    rintro c r h
    obtain ⟨rfl, -⟩ := List.cons.inj h
    rfl
  unfold unsigned?
  rw [List.append_assoc, List.cons_append, digits_append hne hds hpoint]
  simp only [Option.bind_eq_bind, Option.bind_some]
  split
  · rfl
  · rw [digits_append hne' hfs hr.not_digit]
    simp only [Option.bind_some]
    cases rest with
    | nil => rw [Option.map_eq_bind]; rfl
    | cons c r =>
      obtain ⟨-, -, he, hE, -⟩ := hr.ends
      split
      · next heq => exact absurd (List.cons.inj heq).1 he
      · next heq => exact absurd (List.cons.inj heq).1 hE
      · rw [Option.map_eq_bind]
        rfl

/-- A printed number is read alike whatever follows it. -/
theorem unsigned_append (h : PlainDigits cs) (hr : Closed rest) :
    unsigned? negative (cs ++ rest) = (unsigned? negative cs).map fun n => (n.1, rest) := by
  cases h with
  | whole ds hne hds =>
    have halone := unsigned_whole negative hne hds .nil
    rw [List.append_nil] at halone
    rw [unsigned_whole negative hne hds hr, halone]
    split
    · rfl
    · rw [Option.map_map]
      rfl
  | pointed ds fs hne hds hne' hfs =>
    have halone := unsigned_pointed negative hne hds hne' hfs .nil
    rw [List.append_nil] at halone
    rw [unsigned_pointed negative hne hds hne' hfs hr, halone]
    split
    · rfl
    · rw [Option.map_map]
      rfl

/-! ### Printed numbers -/

/-- What the printed number is read as; a number that is not finite is none. -/
def reread? (n : Json.Number) : Option Json.Number :=
  if n.value.isFinite then
    (unsigned? n.value.isNegative (Decimal.shortest n.value).plain.toList).map (·.1)
  else none

theorem PlainDigits.head (h : PlainDigits cs) : ∃ d r, cs = d :: r ∧ isDigit d = true := by
  cases h with
  | whole ds hne hds =>
    obtain ⟨d, ds, rfl⟩ := List.exists_cons_of_ne_nil hne
    exact ⟨d, ds, rfl, hds d List.mem_cons_self⟩
  | pointed ds fs hne hds =>
    obtain ⟨d, ds, rfl⟩ := List.exists_cons_of_ne_nil hne
    exact ⟨d, _, rfl, hds d List.mem_cons_self⟩

theorem value_digit {r : List Char} (hc : isDigit c = true) :
    Json.Parser.value (fuel + 1) k (c :: r) =
      (unsigned? false (c :: r)).map fun n => (.number n.1, n.2) := by
  refine digit_cases hc ?_
  and_intros
  all_goals
    unfold Json.Parser.value
    rfl

theorem plainText_not_finite {d : Double} (h : d.isFinite = false) :
    d.plainText = "NaN" ∨ d.plainText = "inf" ∨ d.plainText = "-inf" := by
  unfold Double.plainText
  rw [h]
  cases d.isNaN with
  | true => exact .inl rfl
  | false =>
    cases d.isNegative with
    | true => exact .inr (.inr rfl)
    | false => exact .inr (.inl rfl)

theorem value_number {n : Json.Number} (hr : Closed rest) :
    Json.Parser.value (fuel + 1) k (n.value.plainText.toList ++ rest) =
      (reread? n).map fun m => (.number m, rest) := by
  cases hn : n.value.isFinite with
  | false =>
    rw [reread?, hn]
    rcases plainText_not_finite hn with htext | htext | htext
    all_goals
      rw [htext]
      unfold Json.Parser.value
      rfl
  | true =>
    have hplain := plainDigits_plain (Decimal.shortest n.value)
    obtain ⟨d, r, hcons, hd⟩ := hplain.head
    have hread : ∀ negative,
        (unsigned? negative ((Decimal.shortest n.value).plain.toList ++ rest)).map
          (fun n => (Json.number n.1, n.2)) =
            ((unsigned? negative (Decimal.shortest n.value).plain.toList).map (·.1)).map
              fun m => (.number m, rest) := by
      intro negative
      rw [unsigned_append hplain hr, Option.map_map, Option.map_map]
      rfl
    rw [Double.plainText_of_finite (of_decide_eq_true hn), reread?, if_pos hn]
    cases hneg : n.value.isNegative with
    | true =>
      have hminus : "-".toList = ['-'] := rfl
      rw [if_pos rfl, String.toList_append, hminus, ← hread]
      change Json.Parser.value (fuel + 1) k ('-' :: (_ ++ rest)) = _
      unfold Json.Parser.value
      rfl
    | false =>
      rw [if_neg Bool.false_ne_true, ← hread, hcons, List.cons_append]
      exact value_digit hd

/-! ### Integers -/

theorem absorb_fits {significand : Nat} {whole : List Nat}
    (h : whole.foldl (fun n d => n * 10 + d) significand < digitLimit) :
    Json.Parser.absorb significand whole =
      (whole.foldl (fun n d => n * 10 + d) significand, []) := by
  have hle : ∀ (ds : List Nat) (n : Nat), n ≤ ds.foldl (fun n d => n * 10 + d) n := by
    intro ds
    induction ds with
    | nil => exact fun n => Nat.le_refl n
    | cons d ds ih =>
      intro n
      exact Nat.le_trans (by omega) (ih (n * 10 + d))
  induction whole generalizing significand with
  | nil => rfl
  | cons d whole ih =>
    have hlt : significand * 10 + d < digitLimit := Nat.lt_of_le_of_lt (hle whole _) h
    unfold Json.Parser.absorb
    unfold digitLimit at hlt
    rw [if_pos hlt]
    exact ih h

theorem decimal_toDigits (n : Nat) : decimal (Nat.toDigits 10 n) = n := by
  have h : decimal (Nat.toDigits 10 n) = Nat.ofDigitChars 10 (Nat.toDigits 10 n) 0 := by
    rw [Nat.ofDigitChars_eq_foldl, decimal]
    congr 1
    funext m c
    rw [Nat.mul_comm]
    rfl
  rw [h, Nat.ofDigitChars_ten_toDigits]

theorem decimal_lt (hds : ∀ c ∈ ds, isDigit c = true) : decimal ds < Nat.pow 10 ds.length := by
  induction ds with
  | nil => exact Nat.one_pos
  | cons d ds ih =>
    obtain ⟨hd, hds⟩ := List.forall_mem_cons.1 hds
    simp only [isDigit, Bool.and_eq_true, decide_eq_true_eq, Char.le_def,
      UInt32.le_iff_toNat_le] at hd
    have hone : decimal [d] + 1 ≤ 10 := by
      have : d.toNat ≤ 57 := hd.2
      change 0 * 10 + (d.toNat - 48) + 1 ≤ 10
      omega
    rw [← List.singleton_append, decimal_append]
    calc decimal [d] * Nat.pow 10 ds.length + decimal ds
        < decimal [d] * Nat.pow 10 ds.length + Nat.pow 10 ds.length :=
          Nat.add_lt_add_left (ih hds) _
      _ = (decimal [d] + 1) * Nat.pow 10 ds.length := (Nat.succ_mul ..).symm
      _ ≤ 10 * Nat.pow 10 ds.length := Nat.mul_le_mul_right _ hone
      _ = Nat.pow 10 ([d] ++ ds).length := Nat.mul_comm ..

/-- No zero leads a number of more than one digit. -/
theorem toDigits_lead (n : Nat) : ((digitsOf (Nat.toDigits 10 n)).head? == some 0 &&
    decide (1 < (digitsOf (Nat.toDigits 10 n)).length)) = false := by
  have hdigits := isDigit_digitText n
  unfold Decimal.digitText at hdigits
  rw [Bool.and_eq_false_imp]
  intro hzero
  cases htext : Nat.toDigits 10 n with
  | nil => rfl
  | cons d ds =>
    rw [htext] at hzero hdigits
    have hd : d.toNat - 48 = 0 := Option.some.inj (eq_of_beq hzero)
    refine decide_eq_false fun hlong => ?_
    have hlen : 0 < ds.length := by
      simpa [digitsOf] using hlong
    have hvalue : decimal (d :: ds) = decimal ds := by
      change ds.foldl _ (0 * 10 + (d.toNat - 48)) = _
      rw [hd]
      rfl
    have hlt : n < 10 ^ ds.length := by
      rw [← decimal_toDigits n, htext, hvalue]
      exact decimal_lt (List.forall_mem_cons.1 hdigits).2
    have hle := (Nat.length_toDigits_le_iff (by decide) hlen).2 hlt
    rw [htext, List.length_cons] at hle
    omega

theorem absorb_digits (h : decimal ds < digitLimit) :
    Json.Parser.absorb 0 (digitsOf ds) = (decimal ds, []) := by
  rw [← natOf_digitsOf] at h ⊢
  exact absorb_fits h

/-- Digits alone are an integer, unless they are zero with a sign. -/
theorem number_integer (h : decimal ds ≤ Nat.pow 2 53) (hzero : negative = true → decimal ds ≠ 0) :
    number? negative (digitsOf ds) [] none true =
      some (.integer (if negative then -(decimal ds : Int) else decimal ds)) := by
  have hlimit : Nat.pow 2 53 < 0x8000000000000000 := by decide
  unfold number?
  rw [absorb_digits (Nat.lt_trans (Nat.lt_of_le_of_lt h hlimit) (by decide))]
  cases negative with
  | false => rfl
  | true =>
    have hne := hzero rfl
    simp only [Bool.and_self, List.isEmpty_nil, if_true, Bool.not_true,
      Bool.false_eq_true, if_false]
    rw [if_neg (by omega)]

/-- An integer of up to fifty-three bits is read as it was printed. -/
theorem reread_integer {i : Int} (hi : i.natAbs ≤ Nat.pow 2 53) :
    reread? (.integer i) = some (.integer i) := by
  obtain ⟨hfinite, hsign, hplain⟩ := Double.ofInt_parts hi
  have hdigits := decimal_toDigits i.natAbs
  have hnumber :
      number? (decide (i < 0)) (digitsOf (Nat.toDigits 10 i.natAbs)) [] none true = some _ :=
    number_integer (by rwa [hdigits]) fun h => by have := of_decide_eq_true h; omega
  have hvalue : (if decide (i < 0) = true then -(i.natAbs : Int) else i.natAbs) = i := by
    split
    · next h =>
      have := of_decide_eq_true h
      omega
    · next h =>
      have := of_decide_eq_false (Bool.eq_false_iff.2 h)
      omega
  rw [hdigits, hvalue] at hnumber
  change (if (Double.ofInt i).isFinite then
    (unsigned? (Double.ofInt i).isNegative (Decimal.shortest (.ofInt i)).plain.toList).map _
    else none) = _
  rw [if_pos hfinite]
  have hwhole := unsigned_whole (decide (i < 0)) Nat.toDigits_ne_nil
    (isDigit_digitText i.natAbs) .nil
  rw [List.append_nil] at hwhole
  rw [hsign, hplain, Nat.toList_repr, hwhole, toDigits_lead, if_neg Bool.false_ne_true, hnumber]
  rfl

end MachineProvider.Jsonnet
