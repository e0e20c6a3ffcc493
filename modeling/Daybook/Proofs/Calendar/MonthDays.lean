/-
  Daybook/Proofs/Calendar/MonthDays.lean
  ======================================
  **The days of a month.**  A month has as many dates as its length says
  (`ncard_monthDates`), and counting from its first day to the first day of the
  next month finds that many (`daysInMonth?_eq_some`).  The last month of the
  representable years has no next one, and counting finds nothing there.
-/
import Daybook.Proofs.Calendar.DayNumber
import Mathlib.Data.Set.Card
import Mathlib.Order.Interval.Finset.Nat

namespace Daybook

namespace Date

/-- The dates of a month. -/
def monthDates (year : Int) (month : Nat) : Set Date := {d | d.year = year ∧ d.month = month}

theorem ext_day {a b : Date} (hyear : a.year = b.year) (hmonth : a.month = b.month)
    (hday : a.day = b.day) : a = b := by
  cases a
  cases b
  simp_all

variable {year : Int} {month : Nat}

theorem injOn_day : Set.InjOn day (monthDates year month) := by
  rintro a ⟨hyear, hmonth⟩ b ⟨hyear', hmonth'⟩ hday
  exact ext_day (hyear.trans hyear'.symm) (hmonth.trans hmonth'.symm) hday

variable (hfirst : firstYear ≤ year) (hlast : year ≤ lastYear) (hmonth : 1 ≤ month)
  (hmonth' : month ≤ 12)
include hfirst hlast hmonth hmonth'

theorem image_day_monthDates :
    day '' monthDates year month = ↑(Finset.Icc 1 (monthLength year month)) := by
  ext n
  rw [Finset.coe_Icc, Set.mem_Icc]
  constructor
  · rintro ⟨d, ⟨rfl, rfl⟩, rfl⟩
    obtain ⟨-, -, -, -, hday, hday'⟩ := d.valid
    exact ⟨hday, hday'⟩
  · rintro ⟨hday, hday'⟩
    exact ⟨⟨year, month, n, hfirst, hlast, hmonth, hmonth', hday, hday'⟩, ⟨rfl, rfl⟩, rfl⟩

/-- **A month has as many dates as it is long.** -/
theorem ncard_monthDates : (monthDates year month).ncard = monthLength year month := by
  rw [← injOn_day.ncard_image, image_day_monthDates hfirst hlast hmonth hmonth',
    Set.ncard_coe_finset, Nat.card_Icc]
  omega

theorem finite_monthDates : (monthDates year month).Finite := by
  have hdays : (day '' monthDates year month).Finite := by
    rw [image_day_monthDates hfirst hlast hmonth hmonth']
    exact Finset.finite_toSet _
  exact hdays.of_finite_image injOn_day

/-- A month has a first date and a last one. -/
theorem exists_first_last :
    ∃ first ∈ monthDates year month, ∃ last ∈ monthDates year month,
      first.day = 1 ∧ last.day = monthLength year month := by
  have hlength := monthLength_pos year month
  exact ⟨⟨year, month, 1, hfirst, hlast, hmonth, hmonth', Nat.le_refl 1, hlength⟩, ⟨rfl, rfl⟩,
    ⟨year, month, monthLength year month, hfirst, hlast, hmonth, hmonth', hlength, Nat.le_refl _⟩,
    ⟨rfl, rfl⟩, rfl, rfl⟩

end Date

/-! ### Counting to the next month -/

section

variable {year : Int} {month : Nat} {first last : Date}
  (hfirst : first ∈ Date.monthDates year month) (hlast : last ∈ Date.monthDates year month)
  (hone : first.day = 1) (hend : last.day = monthLength year month)
include hfirst hlast hone hend

/-- The first day of the next month is the day after the last one of the month. -/
theorem daysInMonth?_eq_map :
    daysInMonth? year month =
      last.succ?.map fun next => (next.dayNumber - first.dayNumber).toNat := by
  obtain ⟨rfl, rfl⟩ := hlast
  obtain ⟨hyear, hmonth⟩ := hfirst
  obtain ⟨-, -, -, htwelve, -, -⟩ := last.valid
  have hfound : Date.ofYMD? last.year last.month 1 = some first :=
    Date.ofYMD?_eq_some_iff.mpr ⟨hyear, hmonth, hone⟩
  have hnext : last.succ? =
      if last.month = 12 then Date.ofYMD? (last.year + 1) 1 1
      else Date.ofYMD? last.year (last.month + 1) 1 := by
    unfold Date.succ?
    rw [hend, if_neg (Nat.lt_irrefl _)]
    by_cases hdecember : last.month = 12
    · rw [if_neg (by omega), if_pos hdecember]
    · rw [if_pos (by omega), if_neg hdecember]
  unfold daysInMonth?
  rw [hfound, hnext]
  split
  · cases Date.ofYMD? (last.year + 1) 1 1 <;> rfl
  · cases Date.ofYMD? last.year (last.month + 1) 1 <;> rfl

theorem dayNumber_first_of_next {next : Date} (hnext : last.succ? = some next) :
    next.dayNumber - first.dayNumber = monthLength year month := by
  obtain ⟨rfl, rfl⟩ := hlast
  obtain ⟨hyear, hmonth⟩ := hfirst
  rw [(Date.succ?_eq_some_iff.mp hnext).dayNumber_eq]
  unfold Date.dayNumber
  rw [hyear, hmonth, hone, hend]
  omega

end

/-- **Counting finds the days of a month** that has a next one. -/
theorem daysInMonth?_eq_some {year : Int} {month : Nat} (hfirst : firstYear ≤ year)
    (hlast : year ≤ lastYear) (hmonth : 1 ≤ month) (hmonth' : month ≤ 12)
    (hnext : ¬(year = lastYear ∧ month = 12)) :
    daysInMonth? year month = some (monthLength year month) := by
  obtain ⟨first, hfirst', last, hlast', hone, hend⟩ :=
    Date.exists_first_last hfirst hlast hmonth hmonth'
  rw [daysInMonth?_eq_map hfirst' hlast' hone hend]
  cases hsucc : last.succ? with
  | none =>
    -- the last date of all stands in the last month
    have hle := Date.le_of_succ?_eq_none hsucc { year := 262142, month := 12, day := 31 }
    obtain ⟨rfl, rfl⟩ := hlast'
    have hlastYear : lastYear = 262142 := rfl
    rw [← not_lt, Date.lt_iff] at hle
    dsimp only at hle
    omega
  | some next =>
    have hdays := dayNumber_first_of_next hfirst' hlast' hone hend hsucc
    rw [Option.map_some, hdays]
    rfl

/-- The month after the last one has no first day to count to. -/
theorem daysInMonth?_last_month : daysInMonth? lastYear 12 = none := by decide

end Daybook
