import MachineProvider.Proofs.Timestamp.Calendar

/-! A point in time that is a whole second is read back from its text. -/
namespace MachineProvider.Timestamp

variable {low high n width : Nat} {c : Char} {ds rest : List Char}

theorem toList_padded (width n : Nat) :
    (padded width n).toList =
      List.replicate (width - (Nat.toDigits 10 n).length) '0' ++ Nat.toDigits 10 n := by
  simp [padded, Nat.toString_eq_repr, Nat.repr_eq_ofList_toDigits]

theorem isDigit_padded (hc : c ∈ (padded width n).toList) : c.isDigit = true := by
  rw [toList_padded] at hc
  rcases List.mem_append.1 hc with hc | hc
  · obtain ⟨-, rfl⟩ := List.mem_replicate.1 hc
    rfl
  · exact Nat.isDigit_of_mem_toDigits (by decide) (by decide) hc

theorem padded_ne_nil (width n : Nat) : (padded width n).toList ≠ [] := by
  rw [toList_padded]
  exact List.append_ne_nil_of_right_ne_nil _ Nat.toDigits_ne_nil

theorem length_padded (hw : 0 < width) (hn : n < Nat.pow 10 width) :
    (padded width n).toList.length = width := by
  have hlen := (Nat.length_toDigits_le_iff (by decide : 1 < 10) hw).2 hn
  rw [toList_padded, List.length_append, List.length_replicate]
  omega

theorem foldl_padded (width n : Nat) :
    (padded width n).toList.foldl (fun n d => n * 10 + (d.toNat - 48)) 0 = n := by
  have hfold : ∀ ds : List Char, ds.foldl (fun n d => n * 10 + (d.toNat - 48)) 0 =
      Nat.ofDigitChars 10 ds 0 := fun ds => by
    simp [Nat.ofDigitChars_eq_foldl, Nat.mul_comm 10]
  rw [hfold, toList_padded, Nat.ofDigitChars_append]
  simp

/-- The digits in front of another character, or as many of them as fit, are one number. -/
theorem number_padded {room : Nat} (hroom : (padded width n).toList.length ≤ room)
    (hrest : (padded width n).toList.length = room ∨ ∀ c ∈ rest.head?, c.isDigit = false) :
    number room ((padded width n).toList ++ rest) = .ok (n, rest) := by
  obtain ⟨ds, hds⟩ : ∃ ds, ds = (padded width n).toList := ⟨_, rfl⟩
  have hdigits : ∀ c ∈ ds, c.isDigit = true := fun c hc => isDigit_padded (hds ▸ hc)
  have hvalue := foldl_padded width n
  have hne := padded_ne_nil width n
  rw [← hds] at hroom hrest hvalue hne ⊢
  have htaken : ((ds ++ rest).take room).takeWhile Char.isDigit = ds := by
    rw [List.take_append, List.take_of_length_le hroom, List.takeWhile_append_of_pos hdigits]
    rcases hrest with hfull | hrest
    · simp [hfull]
    · cases rest with
      | nil => simp
      | cons c rest =>
        cases room - ds.length with
        | zero => simp
        | succ k => simp [hrest c rfl]
  unfold number
  cases ds with
  | nil => exact absurd rfl hne
  | cons d ds =>
    simp only [List.cons_append] at htaken ⊢
    simp [hdigits d List.mem_cons_self, htaken, hvalue]

theorem skipBlanks_of_head (h : ∀ c ∈ rest.head?, isBlank c = false) : skipBlanks rest = rest := by
  cases rest with
  | nil => rfl
  | cons c rest => simp [skipBlanks, h c rfl]

theorem isDigit_of_isBlank (h : isBlank c = true) : c.isDigit = false := by
  simp only [isBlank, Char.isWhitespace, Bool.or_eq_true, Bool.and_eq_true, beq_iff_eq,
    decide_eq_true_eq] at h
  by_cases hrange : '\u2000' ≤ c
  · have hle : 0x2000 ≤ c.val.toNat := hrange
    simp only [Char.isDigit, Bool.and_eq_false_imp, decide_eq_true_eq, decide_eq_false_iff_not]
    intro hlow hhigh
    have hhigh : c.val.toNat ≤ 57 := hhigh
    omega
  · simp only [hrange, false_and, or_false, or_assoc] at h
    rcases h with h | h | h | h | h | h | h | h | h | h | h | h | h | h <;> subst h <;> rfl

/-- No blank is taken off in front of digits. -/
theorem skipBlanks_padded (width n : Nat) (rest : List Char) :
    skipBlanks ((padded width n).toList ++ rest) = (padded width n).toList ++ rest := by
  refine skipBlanks_of_head fun c hc => ?_
  have hne := padded_ne_nil width n
  cases hds : (padded width n).toList with
  | nil => exact absurd hds hne
  | cons d ds =>
    rw [hds] at hc
    obtain rfl : d = c := Option.some.inj hc
    have hd : d.isDigit = true := isDigit_padded (hds ▸ List.mem_cons_self)
    cases hb : isBlank d with
    | false => rfl
    | true => simp [isDigit_of_isBlank hb] at hd

theorem field_padded (hlow : low ≤ n) (hhigh : n ≤ high) (hn : n < 100) (rest : List Char) :
    field low high ((padded 2 n).toList ++ rest) = .ok (n, rest) := by
  have hlen := length_padded (show 0 < 2 by decide) hn
  unfold field inRange
  rw [skipBlanks_padded, number_padded (Nat.le_of_eq hlen) (.inl hlen)]
  simp [bind, Except.bind, hlow, hhigh]

theorem separator_cons (hc : isBlank c = false) (rest : List Char) :
    separator c (c :: rest) = .ok rest := by
  unfold separator
  rw [skipBlanks_of_head (by simpa using hc)]
  simp [literal]

/-- Four digits stand alone: no sign is in front of them. -/
theorem year_padded {y : Int} (hlow : 0 ≤ y) (hhigh : y < 10000) (rest : List Char) :
    year ((padded 4 y.toNat).toList ++ rest) = .ok (y, rest) := by
  have hlen := length_padded (show 0 < 4 by decide) (show y.toNat < 10000 by omega)
  have hread : number 4 ((padded 4 y.toNat).toList ++ rest) = .ok (y.toNat, rest) :=
    number_padded (Nat.le_of_eq hlen) (.inl hlen)
  have hdigits : ∀ d ∈ (padded 4 y.toNat).toList, d.isDigit = true := fun d => isDigit_padded
  have hback : ((y.toNat : Nat) : Int) = y := by omega
  have hsmall : y.natAbs < 0x80000000 := by omega
  unfold year
  rw [skipBlanks_padded]
  cases hds : (padded 4 y.toNat).toList with
  | nil => exact absurd hds (padded_ne_nil 4 y.toNat)
  | cons d ds =>
    have hd := hdigits d (hds ▸ List.mem_cons_self)
    rw [hds] at hread
    rw [List.cons_append] at hread ⊢
    split
    · next heq =>
      obtain ⟨rfl, -⟩ := List.cons.inj heq
      cases hd
    · next heq =>
      obtain ⟨rfl, -⟩ := List.cons.inj heq
      cases hd
    · rw [hread]
      simp [Except.map, bind, Except.bind, hback, hsmall]

theorem year_yearText {y : Int} (hy : y.natAbs < 0x80000000) (hc : c.isDigit = false) :
    year ((yearText y).toList ++ c :: rest) = .ok (y, c :: rest) := by
  have hend : ∀ d ∈ (c :: rest).head?, d.isDigit = false := by simpa using hc
  unfold yearText
  split
  · next hrange => exact year_padded hrange.1 (by omega) _
  · next hrange =>
    have hread : number ((padded 4 y.natAbs).toList.length + (rest.length + 1))
        ((padded 4 y.natAbs).toList ++ c :: rest) = .ok (y.natAbs, c :: rest) :=
      number_padded (Nat.le_add_right ..) (.inr hend)
    split
    · next hneg =>
      have hback : -((y.natAbs : Nat) : Int) = y := by omega
      unfold year
      rw [skipBlanks_of_head (by simp; decide)]
      simp only [String.toList_append, String.reduceToList, List.cons_append, List.nil_append,
        List.length_append, List.length_cons, hread, Except.map, bind, Except.bind,
        hback, if_pos hy]
    · next hpos =>
      have hback : ((y.natAbs : Nat) : Int) = y := by omega
      unfold year
      rw [skipBlanks_of_head (by simp; decide)]
      simp only [String.toList_append, String.reduceToList, List.cons_append, List.nil_append,
        List.length_append, List.length_cons, hread, Except.map, bind, Except.bind,
        hback, if_pos hy]

/-- A second that has a date, and no part of a second; a leap second stands behind the last
second of a minute. -/
structure WholeSecond (t : Timestamp) : Prop where
  first_le : firstSecond ≤ t.seconds
  lt_end : t.seconds < endSecond
  whole : t.nanoseconds = 0 ∨ t.nanoseconds = 1000000000 ∧ t.seconds % 60 = 59

instance (t : Timestamp) : Decidable t.WholeSecond :=
  decidable_of_iff (firstSecond ≤ t.seconds ∧ t.seconds < endSecond ∧
      (t.nanoseconds = 0 ∨ t.nanoseconds = 1000000000 ∧ t.seconds % 60 = 59))
    ⟨fun h => ⟨h.1, h.2.1, h.2.2⟩, fun h => ⟨h.1, h.2, h.3⟩⟩

/-- A date and a time in UTC, as `text` writes them. -/
def written (y : Int) (month day hour minute second : Nat) : String :=
  s!"{yearText y}-{padded 2 month}-{padded 2 day}" ++
    s!"T{padded 2 hour}:{padded 2 minute}:{padded 2 second}Z"

/-- A date and a time in UTC are read as they are written. -/
theorem parse_written {y utc : Int} {month day hour minute second : Nat}
    (hy : firstYear ≤ y) (hy' : y ≤ lastYear) (hmonth : 1 ≤ month ∧ month ≤ 12)
    (hday : 1 ≤ day ∧ day ≤ 31 ∧ day ≤ daysInMonth y month)
    (hhour : hour ≤ 23) (hminute : minute ≤ 59) (hsecond : second ≤ 60)
    (hutc : utc = daysFromCivil y month day * 86400 +
      (hour * 3600 + minute * 60 + (if second = 60 then 59 else second) : Nat))
    (hfirst : firstSecond ≤ utc) (hend : utc < endSecond) :
    parse (written y month day hour minute second) =
      .ok ⟨utc, if second = 60 then 1000000000 else 0⟩ := by
  have hyear : y.natAbs < 0x80000000 := by
    unfold firstYear at hy
    unfold lastYear at hy'
    omega
  have hchars : (written y month day hour minute second).toList =
      (yearText y).toList ++ '-' :: ((padded 2 month).toList ++ '-' :: ((padded 2 day).toList ++
        'T' :: ((padded 2 hour).toList ++ ':' :: ((padded 2 minute).toList ++
          ':' :: ((padded 2 second).toList ++ ['Z']))))) := by
    simp [written, toString, String.toList_append]
  have hinvalid : ¬ (y < firstYear ∨ lastYear < y ∨ daysInMonth y month < day ∨
      86400 ≤ (0 : Int).natAbs) := by
    simp only [Int.natAbs_zero]
    omega
  have hpossible : ¬ (utc < firstSecond ∨ endSecond ≤ utc) := by omega
  have hfraction : fraction ['Z'] = .ok (0, ['Z']) := rfl
  have hblanks : skipBlanks ['Z'] = ['Z'] := by decide
  have hword : isUtcWord ['Z'] = false := by decide
  have hoffset : offset ['Z'] = .ok (0, []) := rfl
  unfold parse
  rw [hchars, year_yearText hyear (by decide)]
  simp only [bind, Except.bind, separator_cons (show isBlank '-' = false by decide),
    separator_cons (show isBlank ':' = false by decide),
    field_padded hmonth.1 hmonth.2 (by omega), field_padded hday.1 hday.2.1 (by omega),
    field_padded (Nat.zero_le _) hhour (by omega), field_padded (Nat.zero_le _) hminute (by omega),
    field_padded (Nat.zero_le _) hsecond (by omega), show ('T' == 'T') = true by decide,
    Bool.or_true, Bool.true_or, if_true, hfraction, hblanks, hword, Bool.false_eq_true, if_false,
    hoffset]
  rw [if_pos (show (skipBlanks []).isEmpty = true by decide), if_neg hinvalid, Int.sub_zero, ← hutc,
    if_neg hpossible, Nat.zero_add]
  rfl

theorem parse_text {t : Timestamp} (h : t.WholeSecond) : parse t.text = .ok t := by
  obtain ⟨hfirst, hend, hwhole⟩ := h
  obtain ⟨seconds, nanoseconds⟩ := t
  simp only at hfirst hend hwhole
  obtain ⟨days, hdays⟩ : ∃ days, days = seconds.fdiv 86400 := ⟨_, rfl⟩
  obtain ⟨r, hr⟩ : ∃ r, r = (seconds - days * 86400).toNat := ⟨_, rfl⟩
  obtain ⟨y, month, day, hdate⟩ : ∃ y month day, civilFromDays days = (y, month, day) :=
    ⟨_, _, _, rfl⟩
  have hsplit : seconds = days * 86400 + r ∧ r < 86400 := by
    rw [Int.fdiv_eq_ediv_of_nonneg _ (show (0 : Int) ≤ 86400 by decide)] at hdays
    omega
  obtain ⟨hm, hm', hd, hd', hback⟩ := civilFromDays_spec hdate
  have hyear : firstYear ≤ y ∧ y ≤ lastYear := by
    unfold firstSecond at hfirst
    unfold endSecond at hend
    exact civilFromDays_year hdate (by omega) (by omega)
  have hshort : day ≤ 31 := by
    unfold daysInMonth at hd'
    split at hd' <;> (try split at hd') <;> omega
  obtain ⟨second, hsecond⟩ : ∃ second, second = r % 60 + nanoseconds / 1000000000 := ⟨_, rfl⟩
  have hleap : second = 60 ∧ nanoseconds = 1000000000 ∧ r % 60 = 59 ∨
      second ≤ 59 ∧ nanoseconds = 0 ∧ second = r % 60 := by omega
  have hread : parse (written y month day (r / 3600) (r / 60 % 60) second) =
      .ok ⟨seconds, if second = 60 then 1000000000 else 0⟩ :=
    parse_written hyear.1 hyear.2 ⟨hm, hm'⟩ ⟨hd, hshort, hd'⟩ (by omega) (by omega) (by omega)
      (by rw [hback]; split <;> omega) hfirst hend
  have hnanos : (if second = 60 then 1000000000 else 0) = nanoseconds := by split <;> omega
  rw [hnanos] at hread
  unfold text
  simp only [← hdays, ← hr, hdate, ← hsecond]
  exact hread

end MachineProvider.Timestamp
