/-
  Daybook/Proofs/Calendar/MonthNumber.lean
  ========================================
  **Months in order.**  Month numbers count the months of all years, so a later
  date has no smaller one.  The text of a month says which month it is, also where
  the year is signed or has more than four digits (`monthKey_eq_iff`); among years of
  four digits without a sign the texts stand in the order of the months
  (`monthNumber_lt_of_monthKey_lt`).
-/
import Daybook.Proofs.Calendar.DateText
import Daybook.Proofs.Calendar.DayNumber
import Mathlib.Data.String.Basic

namespace Daybook.Date

open Daybook.Text

/-- The number of the month of a date, one more for each following month. -/
def monthNumber (d : Date) : Int := 12 * d.year + d.month

variable {a b : Date}

theorem monthNumber_eq_iff :
    a.monthNumber = b.monthNumber ↔ a.year = b.year ∧ a.month = b.month := by
  obtain ⟨-, -, ha, ha', -, -⟩ := a.valid
  obtain ⟨-, -, hb, hb', -, -⟩ := b.valid
  unfold monthNumber
  omega

theorem monthNumber_le (h : a ≤ b) : a.monthNumber ≤ b.monthNumber := by
  obtain ⟨-, -, ha, ha', -, -⟩ := a.valid
  obtain ⟨-, -, hb, hb', -, -⟩ := b.valid
  rw [← not_lt, lt_iff] at h
  unfold monthNumber
  omega

theorem lt_of_monthNumber_lt (h : a.monthNumber < b.monthNumber) : a < b := by
  obtain ⟨-, -, ha, ha', -, -⟩ := a.valid
  obtain ⟨-, -, hb, hb', -, -⟩ := b.valid
  unfold monthNumber at h
  rw [lt_iff]
  omega

/-- **The text of a month says which month it is.** -/
theorem monthKey_eq_iff : a.monthKey = b.monthKey ↔ a.monthNumber = b.monthNumber := by
  rw [monthNumber_eq_iff]
  constructor
  · intro h
    have hread (d : Date) : takeYear? (yearText d.year ++ '-' :: padded 2 d.month) =
        some (d.year, '-' :: padded 2 d.month) :=
      takeYear?_yearText d.year (endsDigits_cons (by decide) _)
    have hsame := hread a
    rw [String.ofList_injective h, hread b, Option.some.injEq, Prod.mk.injEq] at hsame
    obtain ⟨hyear, hmonth⟩ := hsame
    have hvalue := congrArg digitsValue (List.cons.inj hmonth).2
    rw [digitsValue_padded, digitsValue_padded] at hvalue
    exact ⟨hyear.symm, hvalue.symm⟩
  · rintro ⟨hyear, hmonth⟩
    unfold monthKey
    rw [hyear, hmonth]

/-! ### Order -/

/-- Whether the year of a date is written with four digits and no sign. -/
def HasFourDigitYear (d : Date) : Prop := 0 ≤ d.year ∧ d.year ≤ 9999

instance (d : Date) : Decidable d.HasFourDigitYear := inferInstanceAs (Decidable (_ ∧ _))

theorem HasFourDigitYear.yearText_eq {d : Date} (h : d.HasFourDigitYear) :
    yearText d.year = padded 4 d.year.toNat := if_pos h

theorem monthKey_lt_of_monthNumber_lt (ha : a.HasFourDigitYear) (hb : b.HasFourDigitYear)
    (h : a.monthNumber < b.monthNumber) : a.monthKey < b.monthKey := by
  obtain ⟨-, -, hmonth, hmonth', -, -⟩ := a.valid
  obtain ⟨-, -, hnext, hnext', -, -⟩ := b.valid
  unfold monthNumber at h
  unfold monthKey
  rw [String.lt_iff_toList_lt, String.toList_ofList, String.toList_ofList, ha.yearText_eq,
    hb.yearText_eq]
  unfold HasFourDigitYear at ha hb
  rcases lt_or_eq_of_le (show a.year ≤ b.year by omega) with hyear | hyear
  · exact padded_append_lt (by decide) (by omega) (by omega) _ _
  · have hmonths : padded 2 a.month ++ [] < padded 2 b.month ++ [] :=
      padded_append_lt (by decide) (by omega) (by omega) _ _
    rw [List.append_nil, List.append_nil] at hmonths
    rw [hyear]
    apply List.append_left_lt
    rw [List.cons_lt_cons_iff]
    exact .inr ⟨rfl, hmonths⟩

/-- **Texts of months with years of four digits stand in the order of time.** -/
theorem monthNumber_lt_of_monthKey_lt (ha : a.HasFourDigitYear) (hb : b.HasFourDigitYear)
    (h : a.monthKey < b.monthKey) : a.monthNumber < b.monthNumber := by
  rcases Int.lt_trichotomy a.monthNumber b.monthNumber with hlt | heq | hgt
  · exact hlt
  · rw [monthKey_eq_iff.mpr heq] at h
    exact absurd h (lt_irrefl _)
  · exact absurd h (lt_asymm (monthKey_lt_of_monthNumber_lt hb ha hgt))

end Daybook.Date
