/-
  Daybook/Proofs/Calendar/DayNumber.lean
  ======================================
  **Dates in order are days in order.**  Day numbers count the calendar: the day
  after a date has the next number, and a later date has a greater one
  (`dayNumber_lt_iff`), so dates are linearly ordered.  Counting from one date to
  another therefore meets every date between them, once and in order
  (`mem_strictlyBetween`), and comes to an end (`walk_strictlyBetween`).
-/
import Daybook.Proofs.Calendar.Date
import Mathlib.Order.Defs.LinearOrder

namespace Daybook.Date

/-! ### Years and months -/

theorem daysBeforeYear_succ (year : Int) :
    daysBeforeYear (year + 1) = daysBeforeYear year + if isLeapYear year then 366 else 365 := by
  unfold daysBeforeYear isLeapYear
  split
  next h =>
    simp only [Bool.and_eq_true, Bool.or_eq_true, beq_iff_eq, bne_iff_ne] at h
    omega
  next h =>
    simp only [Bool.and_eq_true, Bool.or_eq_true, beq_iff_eq, bne_iff_ne] at h
    omega

theorem daysBeforeYear_le {a b : Int} (h : a ≤ b) : daysBeforeYear a ≤ daysBeforeYear b := by
  unfold daysBeforeYear
  omega

theorem daysBeforeMonth_succ (year : Int) {month : Nat} (h : 1 ≤ month) :
    daysBeforeMonth year (month + 1) = daysBeforeMonth year month + monthLength year month := by
  cases month with
  | zero => omega
  | succ month => rfl

theorem daysBeforeMonth_le (year : Int) {a b : Nat} (ha : 1 ≤ a) (h : a ≤ b) :
    daysBeforeMonth year a ≤ daysBeforeMonth year b := by
  induction h with
  | refl => exact Nat.le_refl _
  | step hab ih =>
    rw [daysBeforeMonth_succ year (Nat.le_trans ha hab)]
    omega

/-- The months of a year have as many days as the year. -/
theorem daysBeforeMonth_thirteen (year : Int) :
    daysBeforeMonth year 13 = if isLeapYear year then 366 else 365 := by
  cases h : isLeapYear year <;> simp [daysBeforeMonth, monthLength, h]

/-! ### Order -/

variable {a b d : Date}

theorem lt_iff :
    a < b ↔ a.year < b.year ∨ a.year = b.year ∧
      (a.month < b.month ∨ a.month = b.month ∧ a.day < b.day) := by
  have hcompare : a < b ↔ (compare a.year b.year).then
      ((compare a.month b.month).then (compare a.day b.day)) = .lt := Iff.rfl
  rw [hcompare, Ordering.then_eq_lt, Ordering.then_eq_lt, Int.compare_eq_lt, Int.compare_eq_eq,
    Nat.compare_eq_lt, Nat.compare_eq_eq, Nat.compare_eq_lt]

theorem dayNumber_bounds (d : Date) :
    daysBeforeYear d.year < d.dayNumber ∧ d.dayNumber ≤ daysBeforeYear (d.year + 1) := by
  obtain ⟨-, -, hmonth, hmonth', hday, hday'⟩ := d.valid
  have hnext := daysBeforeMonth_succ d.year hmonth
  have hyear := daysBeforeMonth_le d.year (a := d.month + 1) (b := 13) (by omega) (by omega)
  rw [daysBeforeMonth_thirteen] at hyear
  rw [daysBeforeYear_succ]
  unfold dayNumber
  split at hyear
  next h =>
    rw [if_pos h]
    omega
  next h =>
    rw [if_neg h]
    omega

theorem dayNumber_lt_of_lt (h : a < b) : a.dayNumber < b.dayNumber := by
  rcases lt_iff.mp h with hyear | ⟨hyear, hmonth | ⟨hmonth, hday⟩⟩
  · have ha := a.dayNumber_bounds
    have hb := b.dayNumber_bounds
    have hyears := daysBeforeYear_le (a := a.year + 1) (b := b.year) (by omega)
    omega
  · have hday := a.day_le
    obtain ⟨-, -, hfirst, -, -, -⟩ := a.valid
    obtain ⟨-, -, -, -, hday', -⟩ := b.valid
    have hnext := daysBeforeMonth_succ a.year hfirst
    have hmonths := daysBeforeMonth_le a.year (a := a.month + 1) (b := b.month) (by omega) hmonth
    unfold dayNumber
    rw [← hyear]
    omega
  · unfold dayNumber
    rw [hyear, hmonth]
    omega

protected theorem lt_trichotomy (a b : Date) : a < b ∨ a = b ∨ b < a := by
  rw [lt_iff, lt_iff]
  by_cases hsame : a.year = b.year ∧ a.month = b.month ∧ a.day = b.day
  · obtain ⟨hyear, hmonth, hday⟩ := hsame
    refine .inr (.inl ?_)
    cases a
    cases b
    simp_all
  · omega

/-- **A later date has a greater number.** -/
theorem dayNumber_lt_iff : a.dayNumber < b.dayNumber ↔ a < b := by
  constructor
  · intro h
    rcases Date.lt_trichotomy a b with hlt | rfl | hgt
    · exact hlt
    · omega
    · have := dayNumber_lt_of_lt hgt
      omega
  · exact dayNumber_lt_of_lt

theorem dayNumber_inj : a.dayNumber = b.dayNumber ↔ a = b := by
  constructor
  · intro h
    rcases Date.lt_trichotomy a b with hlt | heq | hgt
    · have := dayNumber_lt_of_lt hlt
      omega
    · exact heq
    · have := dayNumber_lt_of_lt hgt
      omega
  · rintro rfl
    rfl

protected theorem not_lt_iff : ¬b < a ↔ a ≤ b := by
  have hle : a ≤ b ↔ (compare a.year b.year).then
      ((compare a.month b.month).then (compare a.day b.day)) ≠ .gt := Iff.rfl
  rw [hle, lt_iff, ne_eq, Ordering.then_eq_gt, Ordering.then_eq_gt, Int.compare_eq_gt,
    Int.compare_eq_eq, Nat.compare_eq_gt, Nat.compare_eq_eq, Nat.compare_eq_gt, eq_comm,
    eq_comm (a := b.month)]

theorem dayNumber_le_iff : a.dayNumber ≤ b.dayNumber ↔ a ≤ b := by
  rw [← Date.not_lt_iff, ← dayNumber_lt_iff]
  exact Int.not_lt.symm

instance : LinearOrder Date where
  le_refl a := dayNumber_le_iff.mp (Int.le_refl _)
  le_trans a b c hab hbc := by
    rw [← dayNumber_le_iff] at hab hbc ⊢
    exact Int.le_trans hab hbc
  lt_iff_le_not_ge a b := by
    rw [← dayNumber_lt_iff, ← dayNumber_le_iff, ← dayNumber_le_iff]
    omega
  le_antisymm a b hab hba := by
    rw [← dayNumber_le_iff] at hab hba
    exact dayNumber_inj.mp (Int.le_antisymm hab hba)
  le_total a b := by
    rw [← dayNumber_le_iff, ← dayNumber_le_iff]
    exact Int.le_total _ _
  toOrd := inferInstance
  toDecidableLE := inferInstance
  toDecidableEq := inferInstance
  toDecidableLT := inferInstance
  compare_eq_compareOfLessAndEq a b := by
    unfold compareOfLessAndEq
    cases hcompare : compare a b with
    | lt =>
      have hlt : a < b := hcompare
      rw [if_pos hlt]
    | eq =>
      have hlt : ¬a < b := by
        intro h
        exact absurd (hcompare.symm.trans h) (by decide)
      have hgt : ¬b < a := Date.not_lt_iff.mpr fun h => absurd (hcompare.symm.trans h) (by decide)
      have heq : a = b := ((Date.lt_trichotomy a b).resolve_left hlt).resolve_right hgt
      rw [if_neg hlt, if_pos heq]
    | gt =>
      have hle : ¬a ≤ b := fun h => h hcompare
      have hlt : ¬a < b := fun h => absurd (hcompare.symm.trans h) (by decide)
      have hne : a ≠ b := fun heq => hle (heq ▸ dayNumber_le_iff.mp (Int.le_refl _))
      rw [if_neg hlt, if_neg hne]

/-! ### One day after the other -/

theorem Follows.dayNumber_eq (h : a.Follows b) : b.dayNumber = a.dayNumber + 1 := by
  obtain ⟨-, -, hmonth, -, -, -⟩ := a.valid
  have hnextMonth := daysBeforeMonth_succ a.year hmonth
  unfold dayNumber
  rcases h with ⟨hyear, hsame, hday⟩ | ⟨hyear, hnext, hday, hlast⟩ | ⟨hyear, hfirst, hday, h12, h31⟩
  · rw [hyear, hsame, hday]
    omega
  · rw [hyear, hnext, hday]
    omega
  · have hdecember : daysBeforeMonth a.year 13 = daysBeforeMonth a.year 12 + 31 := rfl
    have hyearLength := daysBeforeMonth_thirteen a.year
    have hnone : daysBeforeMonth (a.year + 1) 1 = 0 := rfl
    rw [hyear, hfirst, hday, h12, h31, hnone, daysBeforeYear_succ]
    split at hyearLength
    next h =>
      rw [if_pos h]
      omega
    next h =>
      rw [if_neg h]
      omega

/-- Only the last representable date has no day after it. -/
theorem le_of_succ?_eq_none (h : a.succ? = none) (d : Date) : d ≤ a := by
  obtain ⟨hyear, hyear', hmonth, hmonth', hday, hday'⟩ := a.valid
  obtain ⟨-, hdyear, -, hdmonth, -, hdday⟩ := d.valid
  unfold succ? at h
  split at h
  next hlt =>
    rw [ofYMD?_eq_none_iff] at h
    exact absurd ⟨hyear, hyear', hmonth, hmonth', by omega, hlt⟩ h
  next hlt =>
    split at h
    next hbefore =>
      have hlength := monthLength_pos a.year (a.month + 1)
      rw [ofYMD?_eq_none_iff] at h
      exact absurd ⟨hyear, hyear', by omega, hbefore, Nat.le_refl 1, hlength⟩ h
    next hbefore =>
      -- the last day of a year, and the year after it is not representable
      have hlast : a.year = lastYear := by
        have hlength := monthLength_pos (a.year + 1) 1
        rw [ofYMD?_eq_none_iff, IsDate] at h
        omega
      have hlength := monthLength_of_december (d := a) (by omega)
      have hdlength := monthLength_le d.year d.month
      rw [← Date.not_lt_iff, lt_iff]
      omega

theorem mem_following {n : Nat} :
    d ∈ following n a ↔ a.dayNumber < d.dayNumber ∧ d.dayNumber ≤ a.dayNumber + n := by
  induction n generalizing a with
  | zero =>
    simp only [following, List.not_mem_nil, false_iff]
    omega
  | succ n ih =>
    unfold following
    cases hnext : a.succ? with
    | none =>
      have hlast := dayNumber_le_iff.mpr (le_of_succ?_eq_none hnext d)
      simp only [List.not_mem_nil, false_iff]
      omega
    | some next =>
      have hnumber := (succ?_eq_some_iff.mp hnext).dayNumber_eq
      rw [List.mem_cons, ih, ← dayNumber_inj]
      omega

/-- As many dates follow as there are up to a date. -/
theorem length_following {n : Nat} (h : b.dayNumber = a.dayNumber + n) :
    (following n a).length = n := by
  induction n generalizing a with
  | zero => rfl
  | succ n ih =>
    unfold following
    cases hnext : a.succ? with
    | none =>
      have hlast := dayNumber_le_iff.mpr (le_of_succ?_eq_none hnext b)
      omega
    | some next =>
      have hnumber := (succ?_eq_some_iff.mp hnext).dayNumber_eq
      rw [List.length_cons, ih (by omega)]

theorem pairwise_following (n : Nat) (a : Date) : (following n a).Pairwise (· < ·) := by
  induction n generalizing a with
  | zero => exact .nil
  | succ n ih =>
    unfold following
    cases a.succ? with
    | none => exact .nil
    | some next =>
      refine List.pairwise_cons.mpr ⟨?_, ih next⟩
      intro d hd
      exact dayNumber_lt_iff.mp (mem_following.mp hd).1

/-- **The dates between two dates are those after the one and before the other.** -/
theorem mem_strictlyBetween : d ∈ strictlyBetween a b ↔ a < d ∧ d < b := by
  unfold strictlyBetween
  rw [mem_following, ← dayNumber_lt_iff, ← dayNumber_lt_iff]
  omega

/-- A walk from a date on, one day after the other, that ends where a date is not before `stop` or
    there is no date any more, and the dates on it. -/
inductive Walk (stop : Date) : Option Date → List Date → Prop
  | outside : Walk stop none []
  | arrived {d : Date} : ¬d < stop → Walk stop (some d) []
  | on {d : Date} {rest : List Date} : d < stop → Walk stop d.succ? rest →
      Walk stop (some d) (d :: rest)

/-- **The walk from one date to another ends**, also at the last representable date, and its dates
    are those between them. -/
theorem walk_strictlyBetween (a b : Date) : Walk b a.succ? (strictlyBetween a b) := by
  unfold strictlyBetween
  generalize hn : (b.dayNumber - a.dayNumber - 1).toNat = n
  induction n generalizing a with
  | zero =>
    unfold following
    cases hnext : a.succ? with
    | none => exact .outside
    | some next =>
      have hnumber := (succ?_eq_some_iff.mp hnext).dayNumber_eq
      apply Walk.arrived
      rw [← dayNumber_lt_iff]
      omega
  | succ n ih =>
    unfold following
    cases hnext : a.succ? with
    | none => exact .outside
    | some next =>
      have hnumber := (succ?_eq_some_iff.mp hnext).dayNumber_eq
      have hlt : next < b := by
        rw [← dayNumber_lt_iff]
        omega
      exact .on hlt (ih next (by omega))

theorem pairwise_strictlyBetween (a b : Date) : (strictlyBetween a b).Pairwise (· < ·) :=
  pairwise_following _ a

end Daybook.Date
