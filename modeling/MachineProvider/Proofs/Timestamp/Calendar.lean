import MachineProvider.Timestamp

/-! The calendar counts days both ways: every day has one date, which is a day of its month. Years
are counted from March here, so that a leap day is the last day of its year. -/
namespace MachineProvider.Timestamp

/-- Days in front of a year. -/
def daysBefore (n : Int) : Int := 365 * n + n / 4 - n / 100 + n / 400

theorem daysBefore_succ_le (n : Int) : daysBefore (n + 1) ≤ daysBefore n + 366 := by
  unfold daysBefore
  omega

theorem daysBefore_mono {n k : Int} (h : n ≤ k) : daysBefore n ≤ daysBefore k := by
  unfold daysBefore
  omega

/-- Every four hundred years the calendar starts anew. -/
theorem daysBefore_era (n era : Int) :
    daysBefore (n + era * 400) = daysBefore n + era * 146097 := by
  unfold daysBefore
  omega

/-- A year with a day more ends in a leap year. -/
theorem leap_of_daysBefore {n : Int} (h : daysBefore n + 365 < daysBefore (n + 1)) :
    isLeapYear (n + 1) = true := by
  unfold daysBefore at h
  have hfour : (n + 1) % 4 = 0 := by omega
  have hhundred : (n + 1) % 100 ≠ 0 ∨ (n + 1) % 400 = 0 := by omega
  simp only [isLeapYear, Bool.and_eq_true, Bool.or_eq_true, beq_iff_eq, bne_iff_ne]
  exact ⟨hfour, hhundred⟩

/-- The year of an era that a day of it falls in. -/
theorem yearOfEra_spec {d n : Int} (hd : 0 ≤ d) (hd' : d < 146097)
    (hn : n = (d - d / 1460 + d / 36524 - d / 146096) / 365) :
    0 ≤ n ∧ n < 400 ∧ daysBefore n ≤ d ∧ d < daysBefore (n + 1) := by
  have hlow : 0 ≤ n := by omega
  have hhigh : n < 400 := by omega
  -- Spans of four years, of a century, and the last day of the era.
  obtain ⟨c, hc⟩ : ∃ c, c = d / 1460 := ⟨_, rfl⟩
  obtain ⟨e, he⟩ : ∃ e, e = d / 36524 := ⟨_, rfl⟩
  obtain ⟨f, hf⟩ : ∃ f, f = d / 146096 := ⟨_, rfl⟩
  rw [← hc, ← he, ← hf] at hn
  unfold daysBefore
  refine ⟨hlow, hhigh, ?_, ?_⟩
  · have hspan : c = n / 4 ∨ c = n / 4 + 1 := by omega
    have hcentury : e - f ≤ n / 4 / 25 := by omega
    have hsame : n / 100 = n / 4 / 25 := by omega
    rcases hspan with h | h <;> omega
  · obtain ⟨k, hk⟩ : ∃ k, k = n + 1 := ⟨_, rfl⟩
    rw [← hk]
    have hbound : d - c + e - f < 365 * k := by omega
    have hcenturies : k / 100 = k / 4 / 25 := by omega
    have hera : k / 400 = k / 4 / 100 := by omega
    rw [hcenturies, hera]
    obtain ⟨u, hu⟩ : ∃ u, u = k / 4 := ⟨_, rfl⟩
    rw [← hu]
    rcases Int.lt_trichotomy c u with h | h | h
    · omega
    · by_cases hstart : u = 25 * (u / 25)
      · omega
      · have hcentury : u / 25 ≤ e - f := by omega
        omega
    · omega

variable {days y n m doy : Int} {month day : Nat}

/-- A month, as the so manieth of a year that begins with March. -/
def FromMarch (y : Int) (month : Nat) (n m : Int) : Prop :=
  m < 10 ∧ month = m + 3 ∧ y = n ∨ 10 ≤ m ∧ month = m - 9 ∧ y = n + 1

theorem FromMarch.daysFromCivil_eq (h : FromMarch y month n m) (hm : 0 ≤ m) (hm' : m < 12) :
    daysFromCivil y month day = daysBefore n + ((153 * m + 2) / 5 + day - 1) - 719468 := by
  have hshifted : ((month : Int) + 9) % 12 = m := by
    rcases h with ⟨hm10, hmonth, -⟩ | ⟨hm10, hmonth, -⟩ <;> omega
  have hyear : (if month ≤ 2 then y - 1 else y) = n := by
    rcases h with ⟨hm10, hmonth, hy⟩ | ⟨hm10, hmonth, hy⟩
    · rw [if_neg (by omega), hy]
    · rw [if_pos (by omega), hy, Int.add_sub_cancel]
  unfold daysFromCivil daysBefore
  simp only [hyear, hshifted, Int.fdiv_eq_ediv_of_nonneg _ (show (0 : Int) ≤ 400 by decide)]
  omega

/-- The day of the month that a day of the year is. -/
theorem FromMarch.day_le (h : FromMarch y month n m) (hm : m = (5 * doy + 2) / 153) (hdoy : 0 ≤ doy)
    (hdoy' : daysBefore n + doy < daysBefore (n + 1)) :
    doy - (153 * m + 2) / 5 + 1 ≤ daysInMonth y month := by
  have hnext := daysBefore_succ_le n
  unfold daysInMonth
  rcases h with ⟨hm10, hmonth, -⟩ | ⟨hm10, hmonth, rfl⟩
  · rw [if_neg (by omega)]
    split <;> omega
  · split
    · cases hl : isLeapYear (n + 1) with
      | true =>
        rw [if_pos rfl]
        omega
      | false =>
        -- Without a leap day the year ends a day earlier.
        have hshort : ¬ daysBefore n + 365 < daysBefore (n + 1) := fun hlong => by
          rw [leap_of_daysBefore hlong] at hl
          cases hl
        rw [if_neg Bool.false_ne_true]
        omega
    · split <;> omega

/-- A date is found by way of the year from March and the day of that year. -/
theorem fromMarch_civilFromDays (h : civilFromDays days = (y, month, day)) :
    ∃ n doy, FromMarch y month n ((5 * doy + 2) / 153) ∧ 0 ≤ doy ∧
      days + 719468 = daysBefore n + doy ∧ daysBefore n + doy < daysBefore (n + 1) ∧
      (day : Int) = doy - (153 * ((5 * doy + 2) / 153) + 2) / 5 + 1 := by
  unfold civilFromDays at h
  simp only [Int.fdiv_eq_ediv_of_nonneg _ (show (0 : Int) ≤ 146097 by decide)] at h
  obtain ⟨era, hera⟩ : ∃ era, era = (days + 719468) / 146097 := ⟨_, rfl⟩
  obtain ⟨d, hd⟩ : ∃ d, d = days + 719468 - era * 146097 := ⟨_, rfl⟩
  obtain ⟨n, hn⟩ : ∃ n, n = (d - d / 1460 + d / 36524 - d / 146096) / 365 := ⟨_, rfl⟩
  obtain ⟨doy, hdoy⟩ : ∃ doy, doy = d - (365 * n + n / 4 - n / 100) := ⟨_, rfl⟩
  obtain ⟨m, hm⟩ : ∃ m, m = (5 * doy + 2) / 153 := ⟨_, rfl⟩
  rw [← hera, ← hd, ← hn, ← hdoy, ← hm] at h
  simp only [Prod.mk.injEq] at h
  obtain ⟨hy, hmonth, hday⟩ := h
  obtain ⟨hlow, hhigh, hfrom, hto⟩ := yearOfEra_spec (by omega) (by omega) hn
  have hbefore : daysBefore n = 365 * n + n / 4 - n / 100 := by
    unfold daysBefore
    omega
  have hnext := daysBefore_succ_le n
  clear hn
  refine ⟨n + era * 400, doy, ?_, by omega, ?_, ?_, ?_⟩
  · rw [← hm]
    rcases Int.lt_or_le m 10 with hm10 | hm10
    · rw [if_pos hm10] at hmonth hy
      rw [if_neg (by omega)] at hy
      exact .inl ⟨hm10, by omega, hy.symm⟩
    · rw [if_neg (Int.not_lt.2 hm10)] at hmonth hy
      rw [if_pos (by omega)] at hy
      exact .inr ⟨hm10, by omega, hy.symm⟩
  · rw [daysBefore_era]
    omega
  · rw [Int.add_right_comm, daysBefore_era, daysBefore_era]
    omega
  · rw [← hm]
    omega

theorem civilFromDays_spec (h : civilFromDays days = (y, month, day)) :
    1 ≤ month ∧ month ≤ 12 ∧ 1 ≤ day ∧ day ≤ daysInMonth y month ∧
      daysFromCivil y month day = days := by
  obtain ⟨n, doy, hmarch, hdoy, hdays, hnext, hday⟩ := fromMarch_civilFromDays h
  have hshort := daysBefore_succ_le n
  have hlast := hmarch.day_le rfl hdoy hnext
  obtain ⟨m, hm⟩ : ∃ m, m = (5 * doy + 2) / 153 := ⟨_, rfl⟩
  rw [← hm] at hmarch hday hlast
  have hm12 : 0 ≤ m ∧ m < 12 := by omega
  have hmonth : 1 ≤ month ∧ month ≤ 12 := by
    rcases hmarch with ⟨hm10, hmonth, -⟩ | ⟨hm10, hmonth, -⟩ <;> omega
  refine ⟨hmonth.1, hmonth.2, by omega, by omega, ?_⟩
  rw [hmarch.daysFromCivil_eq hm12.1 hm12.2]
  omega

/-- The days of the first year up to the last one have their dates in these years. -/
theorem civilFromDays_year (h : civilFromDays days = (y, month, day))
    (hlow : daysFromCivil firstYear 1 1 ≤ days) (hhigh : days < daysFromCivil (lastYear + 1) 1 1) :
    firstYear ≤ y ∧ y ≤ lastYear := by
  obtain ⟨n, doy, hmarch, hdoy, hdays, hnext, -⟩ := fromMarch_civilFromDays h
  have hfirst : daysFromCivil firstYear 1 1 + 719468 = daysBefore (firstYear - 1) + 306 := by decide
  have hlast : daysFromCivil (lastYear + 1) 1 1 + 719468 = daysBefore lastYear + 306 := by decide
  have hn : firstYear - 1 ≤ n := by
    rcases Int.lt_or_le n (firstYear - 1) with hn | hn
    · have := daysBefore_mono (show n + 1 ≤ firstYear - 1 by omega)
      omega
    · exact hn
  have hn' : n ≤ lastYear := by
    rcases Int.lt_or_le lastYear n with hn' | hn'
    · have hlong : daysBefore lastYear + 306 ≤ daysBefore (lastYear + 1) := by decide
      have := daysBefore_mono (show lastYear + 1 ≤ n by omega)
      omega
    · exact hn'
  rcases hmarch with ⟨hm10, -, rfl⟩ | ⟨hm10, -, rfl⟩
  · refine ⟨?_, hn'⟩
    rcases Int.lt_or_le y firstYear with hy | hy
    · obtain rfl : y = firstYear - 1 := by omega
      omega
    · exact hy
  · refine ⟨by omega, ?_⟩
    rcases Int.lt_or_le lastYear (n + 1) with hy | hy
    · obtain rfl : n = lastYear := by omega
      omega
    · exact hy

end MachineProvider.Timestamp
