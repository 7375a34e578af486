import Mathlib
import Bourse.Month

/-!
# Civil dates and the order of months

`Calendar.civilOfDays` reads a day number as a date by splitting it into 400-year eras that
start on a March 1, the year of the era and the day of that year. This file shows that the
month it finds is the right one: the first day of that month lies at or before the day number
and the first day of the month after it lies beyond it (`firstDay_ofDays_le`,
`lt_firstDay_next_ofDays`), for every day number, before or after the epoch.

First days of months grow with the months (`firstDay_lt_next`, `firstDay_lt_firstDay_iff`), so
a month comes after the month of a day exactly when it starts after that day
(`after_ofDays_iff`). That is the comparison a month code is checked by against a clock.

The arithmetic of an era is done once: `yearOfEra_spec` says which year of its era a day of
the era falls in, from the one formula `civilOfDays` uses.
-/

namespace Bourse

namespace Calendar

/-! ## Years of an era -/

/-- The days of an era before its year `k`, years counted from March: 365 a year, one more for
every fourth year but not for every hundredth, one more again for the four-hundredth. -/
def yearStart (k : Int) : Int := 365 * k + k / 4 - k / 100 + k / 400

/-- A day of an era with the leap days before it taken out, so that every year of the era
counts 365 of them. -/
def collapsed (doe : Int) : Int := doe - doe / 1460 + doe / 36524 - doe / 146096

/-- Within an era, the year `100 P + 4 Q + R` starts after `P` centuries of 36524 days, `Q`
four-year cycles of 1461 days and `R` plain years. -/
theorem yearStart_split {P Q R : Int} (hP : 0 ≤ P ∧ P ≤ 3) (hQ : 0 ≤ Q ∧ Q ≤ 24)
    (hR : 0 ≤ R ∧ R ≤ 3) : yearStart (100 * P + 4 * Q + R) = 36524 * P + 1461 * Q + 365 * R := by
  unfold yearStart
  omega

/-- Every year of an era splits into centuries, four-year cycles and plain years. -/
theorem exists_split {k : Int} (h0 : 0 ≤ k) (h1 : k ≤ 399) : ∃ P Q R : Int,
    (0 ≤ P ∧ P ≤ 3) ∧ (0 ≤ Q ∧ Q ≤ 24) ∧ (0 ≤ R ∧ R ≤ 3) ∧ k = 100 * P + 4 * Q + R :=
  ⟨k / 100, k % 100 / 4, k % 4, by omega, by omega, by omega, by omega⟩

/-- The first day of year `k` collapses to `365 k`. -/
theorem collapsed_yearStart {k : Int} (h0 : 0 ≤ k) (h1 : k ≤ 399) :
    collapsed (yearStart k) = 365 * k := by
  obtain ⟨P, Q, R, hP, hQ, hR, rfl⟩ := exists_split h0 h1
  rw [yearStart_split hP hQ hR]
  -- the three leap-day counts at the start of the year
  have h4 : (36524 * P + 1461 * Q + 365 * R) / 1460 = 25 * P + Q := by omega
  have h100 : (36524 * P + 1461 * Q + 365 * R) / 36524 = P := by omega
  have h400 : (36524 * P + 1461 * Q + 365 * R) / 146096 = 0 := by omega
  unfold collapsed
  omega

/-- No year of an era but the first starts on a multiple of 1460 days. -/
theorem yearStart_emod_ne {k : Int} (h0 : 1 ≤ k) (h1 : k ≤ 399) : yearStart k % 1460 ≠ 0 := by
  obtain ⟨P, Q, R, hP, hQ, hR, rfl⟩ := exists_split (by omega) h1
  rw [yearStart_split hP hQ hR]
  have h4 : (36524 * P + 1461 * Q + 365 * R) / 1460 = 25 * P + Q := by omega
  have h := Int.emod_def (36524 * P + 1461 * Q + 365 * R) 1460
  omega

theorem collapsed_mono {d d' : Int} (h : d ≤ d') : collapsed d ≤ collapsed d' := by
  unfold collapsed
  omega

/-- Away from multiples of 1460, the next day collapses to a larger count. -/
theorem collapsed_lt_succ {d : Int} (h0 : 0 ≤ d) (h1 : d < 146096) (h : (d + 1) % 1460 ≠ 0) :
    collapsed d < collapsed (d + 1) := by
  unfold collapsed
  omega

/-- Before its year 400 (the first day of the next era), a year of an era starts at
`365 k + k / 4 - k / 100`. -/
theorem yearStart_eq {k : Int} (h0 : 0 ≤ k) (h1 : k ≤ 399) :
    yearStart k = 365 * k + k / 4 - k / 100 := by
  unfold yearStart
  omega

/-- **The year of the era of a day.**  Dividing the collapsed day by 365 gives a year of the
era, and the day lies in that year: at or after its first day, before the first day of the
next. -/
theorem yearOfEra_spec {doe : Int} (h0 : 0 ≤ doe) (h1 : doe ≤ 146096) :
    0 ≤ collapsed doe / 365 ∧ collapsed doe / 365 ≤ 399 ∧
      yearStart (collapsed doe / 365) ≤ doe ∧ doe < yearStart (collapsed doe / 365 + 1) := by
  have hc0 : 0 ≤ collapsed doe := by unfold collapsed; omega
  have hc1 : collapsed doe ≤ 145999 := by
    have := collapsed_mono h1
    unfold collapsed at this ⊢
    omega
  set k := collapsed doe / 365 with hk
  have hk0 : 0 ≤ k := by omega
  have hk1 : k ≤ 399 := by omega
  refine ⟨hk0, hk1, ?_, ?_⟩
  · -- a day before the start of year `k` would collapse below `365 k`
    refine Int.not_lt.1 fun hlt => ?_
    have hk : 1 ≤ k := by
      refine Int.not_lt.1 fun h => ?_
      have hk : k = 0 := by omega
      rw [hk] at hlt
      unfold yearStart at hlt
      omega
    have hS : yearStart k ≤ 145731 := by unfold yearStart; omega
    have hstep := collapsed_lt_succ (d := yearStart k - 1) (by omega) (by omega)
      (by simpa using yearStart_emod_ne hk hk1)
    have hmono := collapsed_mono (show doe ≤ yearStart k - 1 by omega)
    rw [Int.sub_add_cancel, collapsed_yearStart hk0 hk1] at hstep
    omega
  · -- a day from the start of year `k + 1` on would collapse to `365 (k + 1)` or more
    refine Int.not_le.1 fun hle => ?_
    rcases Int.lt_or_eq_of_le (show k + 1 ≤ 400 by omega) with hlt | heq
    · have hmono := collapsed_mono hle
      rw [collapsed_yearStart (by omega) (by omega)] at hmono
      omega
    · rw [heq] at hle
      unfold yearStart at hle
      omega

/-! ## The date of a day number -/

/-- The civil date of day `doy` of year `yoe` of era `era`, years counted from March. -/
def civilOfEra (era yoe doy : Int) : Int × Nat × Nat :=
  let mp := (5 * doy + 2) / 153
  let m := if mp < 10 then mp + 3 else mp - 9
  let y := yoe + era * 400
  ((if m ≤ 2 then y + 1 else y), m.toNat, (doy - (153 * mp + 2) / 5 + 1).toNat)

/-- Every day number is day `doy` of year `yoe` of some era, within that year, and its date is
the date there. -/
theorem civilOfDays_eq (D : Int) : ∃ era yoe doy : Int,
    0 ≤ yoe ∧ yoe ≤ 399 ∧ 0 ≤ doy ∧ yearStart yoe + doy < yearStart (yoe + 1) ∧
    D = era * 146097 + yearStart yoe + doy - 719468 ∧ civilOfDays D = civilOfEra era yoe doy := by
  have h0 : 0 ≤ D + 719468 - (D + 719468) / 146097 * 146097 := by omega
  have h1 : D + 719468 - (D + 719468) / 146097 * 146097 ≤ 146096 := by omega
  obtain ⟨hk0, hk1, hs0, hs1⟩ := yearOfEra_spec h0 h1
  have he := yearStart_eq hk0 hk1
  -- `civilOfDays` spells the collapsed day out
  simp only [collapsed] at hk0 hk1 hs0 hs1 he
  exact ⟨_, _, _, hk0, hk1, by omega, by omega, by omega, rfl⟩

/-- The first day of the month of a date of an era lies at or before the date. -/
theorem civilOfEra_first_le {era yoe doy : Int} (hk0 : 0 ≤ yoe) (hk1 : yoe ≤ 399) (hd0 : 0 ≤ doy)
    (hd1 : doy ≤ 365) :
    daysFromCivil (civilOfEra era yoe doy).1 (civilOfEra era yoe doy).2.1 1 ≤
      era * 146097 + yearStart yoe + doy - 719468 := by
  simp only [civilOfEra, daysFromCivil, yearStart]
  split_ifs <;> omega

/-- The first day of the month after the month of a date of an era lies beyond the date; after
a February that is the first day of the next year of the era, or of the next era. -/
theorem civilOfEra_lt_next {era yoe doy : Int} (hk0 : 0 ≤ yoe) (hk1 : yoe ≤ 399) (hd0 : 0 ≤ doy)
    (hd1 : yearStart yoe + doy < yearStart (yoe + 1)) :
    era * 146097 + yearStart yoe + doy - 719468 <
      if (civilOfEra era yoe doy).2.1 = 12 then daysFromCivil ((civilOfEra era yoe doy).1 + 1) 1 1
      else daysFromCivil (civilOfEra era yoe doy).1 ((civilOfEra era yoe doy).2.1 + 1) 1 := by
  have he := yearStart_eq hk0 hk1
  have hlen : yearStart (yoe + 1) - yearStart yoe ≤ 366 := by unfold yearStart; omega
  rcases Int.lt_or_eq_of_le (show yoe + 1 ≤ 400 by omega) with hlt | heq
  · have he' := yearStart_eq (k := yoe + 1) (by omega) (by omega)
    simp only [civilOfEra, daysFromCivil]
    split_ifs <;> omega
  · -- the last year of the era ends where the next era starts
    have he' : yearStart (yoe + 1) = 146097 := by rw [heq]; rfl
    simp only [civilOfEra, daysFromCivil]
    split_ifs <;> omega

end Calendar

namespace MonthCode

/-! ## First days of months -/

/-- Whether the month number lies in 1 to 12. -/
def Valid (m : MonthCode) : Prop := 1 ≤ m.month ∧ m.month ≤ 12

instance : DecidablePred Valid := fun m => inferInstanceAs (Decidable (1 ≤ m.month ∧ m.month ≤ 12))

/-- The day number of the first day of a month. -/
def firstDay (m : MonthCode) : Int := Calendar.daysFromCivil m.year m.month 1

/-- The month of the date of a day number. -/
def ofDays (D : Int) : MonthCode :=
  { year := (Calendar.civilOfDays D).1, month := (Calendar.civilOfDays D).2.1 }

theorem ofDays_valid (D : Int) : (ofDays D).Valid := by
  obtain ⟨era, yoe, doy, hk0, hk1, hd0, hd1, -, hc⟩ := Calendar.civilOfDays_eq D
  have he := Calendar.yearStart_eq hk0 hk1
  have hlen : Calendar.yearStart (yoe + 1) - Calendar.yearStart yoe ≤ 366 := by
    unfold Calendar.yearStart; omega
  simp only [Valid, ofDays, hc, Calendar.civilOfEra]
  split_ifs <;> omega

/-- **A day lies at or after the first day of its month.** -/
theorem firstDay_ofDays_le (D : Int) : (ofDays D).firstDay ≤ D := by
  obtain ⟨era, yoe, doy, hk0, hk1, hd0, hd1, rfl, hc⟩ := Calendar.civilOfDays_eq D
  have he := Calendar.yearStart_eq hk0 hk1
  have hlen : Calendar.yearStart (yoe + 1) - Calendar.yearStart yoe ≤ 366 := by
    unfold Calendar.yearStart; omega
  simp only [firstDay, ofDays, hc]
  exact Calendar.civilOfEra_first_le hk0 hk1 hd0 (by omega)

/-- **A day lies before the first day of the month after its month.** -/
theorem lt_firstDay_next_ofDays (D : Int) : D < (ofDays D).next.firstDay := by
  obtain ⟨era, yoe, doy, hk0, hk1, hd0, hd1, rfl, hc⟩ := Calendar.civilOfDays_eq D
  have h := @Calendar.civilOfEra_lt_next era yoe doy hk0 hk1 hd0 hd1
  simp only [firstDay, ofDays, next, hc] at h ⊢
  split_ifs at h ⊢ <;> exact h

/-- Each month starts before the month after it. -/
theorem firstDay_lt_next {m : MonthCode} (hm : m.Valid) : m.firstDay < m.next.firstDay := by
  obtain ⟨y, k⟩ := m
  simp only [Valid] at hm
  unfold firstDay next
  split_ifs with h12
  · subst h12
    dsimp only [Calendar.daysFromCivil]
    split_ifs <;> omega
  · dsimp only [Calendar.daysFromCivil]
    split_ifs <;> omega

/-! ## Months in a row -/

/-- The place of a month in the row of all months. -/
def index (m : MonthCode) : Int := 12 * m.year + m.month - 1

/-- The month at a place in the row. -/
def ofIndex (i : Int) : MonthCode := { year := i / 12, month := (i % 12).toNat + 1 }

theorem ofIndex_index {m : MonthCode} (hm : m.Valid) : ofIndex m.index = m := by
  obtain ⟨y, k⟩ := m
  simp only [Valid] at hm
  simp only [ofIndex, index, MonthCode.mk.injEq]
  omega

theorem ofIndex_valid (i : Int) : (ofIndex i).Valid := by
  simp only [Valid, ofIndex]
  omega

theorem ofIndex_succ (i : Int) : ofIndex (i + 1) = (ofIndex i).next := by
  unfold ofIndex next
  dsimp only
  split_ifs with h
  · simp only [MonthCode.mk.injEq]
    omega
  · simp only [MonthCode.mk.injEq]
    omega

/-- First days grow along the row of months. -/
theorem firstDay_ofIndex_strictMono : StrictMono fun i => (ofIndex i).firstDay :=
  strictMono_int_of_lt_succ fun i => by
    simp only [ofIndex_succ]
    exact firstDay_lt_next (ofIndex_valid i)

/-- One month comes after another exactly when its place in the row is later. -/
theorem after_iff_index_lt {a b : MonthCode} (ha : a.Valid) (hb : b.Valid) :
    a.after b = true ↔ b.index < a.index := by
  obtain ⟨ya, ka⟩ := a
  obtain ⟨yb, kb⟩ := b
  simp only [Valid] at ha hb
  simp only [after, index, Bool.or_eq_true, Bool.and_eq_true, beq_iff_eq, decide_eq_true_eq]
  omega

/-- **Months start in their order.** -/
theorem firstDay_lt_firstDay_iff {a b : MonthCode} (ha : a.Valid) (hb : b.Valid) :
    b.firstDay < a.firstDay ↔ a.after b = true := by
  have h := firstDay_ofIndex_strictMono.lt_iff_lt (a := b.index) (b := a.index)
  simp only [ofIndex_index ha, ofIndex_index hb] at h
  rw [after_iff_index_lt ha hb, h]

/-- **A month comes after the month of a day exactly when it starts after that day.** -/
theorem after_ofDays_iff {m : MonthCode} (hm : m.Valid) (D : Int) :
    m.after (ofDays D) = true ↔ D < m.firstDay := by
  have hc := ofDays_valid D
  constructor
  · -- a later month starts no earlier than the month after the day's month
    intro h
    have hlt := (after_iff_index_lt hm hc).1 h
    have hle : (ofDays D).next.firstDay ≤ m.firstDay := by
      rw [← ofIndex_index hc, ← ofIndex_succ, ← ofIndex_index hm]
      exact firstDay_ofIndex_strictMono.monotone (by omega)
    exact lt_of_lt_of_le (lt_firstDay_next_ofDays D) hle
  · -- a month that is not later starts no later than the day's month
    intro h
    rcases Bool.eq_false_or_eq_true (m.after (ofDays D)) with ht | hnot
    · exact ht
    exfalso
    have hle : m.firstDay ≤ (ofDays D).firstDay := by
      rw [← ofIndex_index hc, ← ofIndex_index hm]
      refine firstDay_ofIndex_strictMono.monotone ?_
      have := (after_iff_index_lt hm hc).not.1 (by simp [hnot])
      omega
    exact lt_irrefl D (lt_of_lt_of_le h (le_trans hle (firstDay_ofDays_le D)))

end MonthCode

end Bourse
