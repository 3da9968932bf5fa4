import AdvisoryLedger.Time.Calendar

namespace AdvisoryLedger.Date

/-- The mean length of years guesses the year up to one. -/
theorem yearOf_bounds (n : Nat) : daysBeforeYear (yearOf n) ≤ n ∧
    n < daysBeforeYear (yearOf n + 1) := by
  unfold yearOf
  dsimp only
  split
  · next h =>
    simp only [daysBeforeYear] at h ⊢
    omega
  · next h =>
    split
    · next h' =>
      simp only [daysBeforeYear] at h h' ⊢
      omega
    · omega

theorem one_le_yearOf (n : Nat) : 1 ≤ yearOf n := by
  unfold yearOf
  dsimp only
  split
  · next h =>
    simp only [daysBeforeYear] at h
    omega
  · split <;> omega

theorem isLeap_iff (year : Nat) : isLeap year = true ↔ year % 4 = 0 ∧
    (year % 100 ≠ 0 ∨ year % 400 = 0) := by
  simp [isLeap]

theorem div_succ (n k : Nat) : (n + 1) / k = n / k + if (n + 1) % k = 0 then 1 else 0 := by
  rw [Nat.succ_div]
  simp only [Nat.dvd_iff_mod_eq_zero]

/-- Of the years that four divides, those that a hundred divides have no leap day, unless four
hundred does. -/
theorem daysInMonth_february (year : Nat) : daysInMonth year 2 + (if year % 100 = 0 then 1 else 0) =
    28 + (if year % 4 = 0 then 1 else 0) + if year % 400 = 0 then 1 else 0 := by
  have hmonth : daysInMonth year 2 = if isLeap year = true then 29 else 28 := rfl
  simp only [hmonth, isLeap_iff]
  split <;> split <;> split <;> split <;> omega

theorem daysBeforeYear_succ {year : Nat} (h : 1 ≤ year) :
    daysBeforeYear (year + 1) = daysBeforeYear year + daysBeforeMonth year 13 := by
  obtain ⟨past, rfl⟩ : ∃ past, year = past + 1 := ⟨year - 1, by omega⟩
  have hmonths : daysBeforeMonth (past + 1) 13 =
      31 + daysInMonth (past + 1) 2 + 31 + 30 + 31 + 30 + 31 + 31 + 30 + 31 + 30 + 31 := by
    simp [daysBeforeMonth, daysInMonth]
  have hfebruary := daysInMonth_february (past + 1)
  have hcenturies : past / 100 + (if (past + 1) % 100 = 0 then 1 else 0) ≤ past / 4 +
    1 := by split <;> omega
  simp only [daysBeforeYear, Nat.add_sub_cancel, hmonths]
  rw [div_succ past 4, div_succ past 100, div_succ past 400]
  omega

theorem daysBeforeYear_mono {year year' : Nat} (h : year ≤ year') :
    daysBeforeYear year ≤ daysBeforeYear year' := by
  induction h with
  | refl => exact Nat.le_refl _
  | @step year' _ ih =>
    rcases Nat.eq_zero_or_pos year' with rfl | hpos
    · exact ih
    · rw [daysBeforeYear_succ hpos]
      omega

theorem yearOf_lt {n year : Nat} (h : n < daysBeforeYear year) : yearOf n < year := by
  refine Nat.lt_of_not_le fun hle => ?_
  have hmono := daysBeforeYear_mono hle
  have hn := (yearOf_bounds n).1
  omega

theorem le_yearOf {n year : Nat} (h : daysBeforeYear year ≤ n) : year ≤ yearOf n := by
  refine Nat.le_of_not_lt fun hlt => ?_
  have hmono : daysBeforeYear (yearOf n + 1) ≤ daysBeforeYear year := daysBeforeYear_mono hlt
  have hn := (yearOf_bounds n).2
  omega

theorem daysBeforeMonth_succ {year month : Nat} (h : 1 ≤ month) :
    daysBeforeMonth year (month + 1) = daysBeforeMonth year month + daysInMonth year month := by
  rw [daysBeforeMonth, if_neg (by omega)]

/-- The month that is found has begun, and the next one has not, unless it was not looked at. -/
theorem monthOf_bounds (year n : Nat) {last : Nat} (h : 1 ≤ last) :
    1 ≤ monthOf year n last ∧ monthOf year n last ≤ last ∧
      daysBeforeMonth year (monthOf year n last) ≤ n ∧
      (monthOf year n last = last ∨ n < daysBeforeMonth year (monthOf year n last + 1)) := by
  induction last with
  | zero => omega
  | succ month ih =>
    rw [monthOf]
    split
    · next hle => exact ⟨by omega, Nat.le_refl _, hle, .inl rfl⟩
    · next hlt =>
      rcases Nat.eq_zero_or_pos month with rfl | hpos
      · exact absurd (Nat.zero_le n) hlt
      · obtain ⟨hone, hle, hbegun, hlast⟩ := ih hpos
        refine ⟨hone, by omega, hbegun, .inr ?_⟩
        rcases hlast with hlast | hnext
        · rw [hlast]
          omega
        · exact hnext

theorem ofOrdinal_bounds (n : Nat) : daysBeforeYear (ofOrdinal n).year +
      daysBeforeMonth (ofOrdinal n).year (ofOrdinal n).month + ((ofOrdinal n).day - 1) = n ∧
    1 ≤ (ofOrdinal n).month ∧ (ofOrdinal n).month ≤ 12 ∧ 1 ≤ (ofOrdinal n).day ∧
    (ofOrdinal n).day ≤ daysInMonth (ofOrdinal n).year (ofOrdinal n).month := by
  have hyear : (ofOrdinal n).year = yearOf n := rfl
  have hmonth : (ofOrdinal n).month = monthOf (yearOf n) (n - daysBeforeYear (yearOf n)) 12 := rfl
  have hday : (ofOrdinal n).day =
      n - daysBeforeYear (yearOf n) - daysBeforeMonth (yearOf n) (ofOrdinal n).month + 1 := rfl
  obtain ⟨hbegun, hnext⟩ := yearOf_bounds n
  obtain ⟨hone, hle, hfirst, hlast⟩ :=
    monthOf_bounds (yearOf n) (n - daysBeforeYear (yearOf n)) (by decide : 1 ≤ 12)
  rw [← hmonth] at hone hle hfirst hlast
  rw [daysBeforeYear_succ (one_le_yearOf n)] at hnext
  have hend : n - daysBeforeYear (yearOf n) <
      daysBeforeMonth (yearOf n) ((ofOrdinal n).month + 1) := by
    rcases hlast with hlast | hlast
    · have hyear' : n - daysBeforeYear (yearOf n) < daysBeforeMonth (yearOf n) 13 := by omega
      rw [hlast]
      exact hyear'
    · exact hlast
  rw [daysBeforeMonth_succ hone] at hend
  rw [hyear]
  omega

theorem ordinal_ofOrdinal (n : Nat) : (ofOrdinal n).ordinal = n := (ofOrdinal_bounds n).1

theorem isValid_ofOrdinal {n : Nat} (h : n < dayLimit) : (ofOrdinal n).IsValid := by
  obtain ⟨-, hone, hle, hday⟩ := ofOrdinal_bounds n
  exact ⟨one_le_yearOf n, Nat.le_of_lt_succ (yearOf_lt h), hone, hle, hday⟩

end AdvisoryLedger.Date
