/-
  Daybook/Calendar/Date.lean
  ==========================
  **Calendar dates.**  The proleptic Gregorian calendar over the representable
  years −262143 … 262142.  A `Date` is a year, a month and a day that exist
  together; `ofYMD?` accepts exactly those, `succ?` and `pred?` step to the
  neighbouring day, `dayNumber` counts the days from a fixed origin, and the
  order is by year, then month, then day.
-/

namespace Daybook

/-! ### Years and months -/

def firstYear : Int := -262143

def lastYear : Int := 262142

/-- Every fourth year is a leap year, except the centuries that 400 does not divide. -/
def isLeapYear (year : Int) : Bool :=
  year % 4 == 0 && (year % 100 != 0 || year % 400 == 0)

/-- The number of days in a month of 1 … 12. -/
def monthLength (year : Int) (month : Nat) : Nat :=
  match month with
  | 2 => if isLeapYear year then 29 else 28
  | 4 | 6 | 9 | 11 => 30
  | _ => 31

/-! ### Dates -/

/-- Whether a day of a month of a year exists and is representable. -/
def IsDate (year : Int) (month day : Nat) : Prop :=
  firstYear ≤ year ∧ year ≤ lastYear ∧ 1 ≤ month ∧ month ≤ 12 ∧
    1 ≤ day ∧ day ≤ monthLength year month

instance (year : Int) (month day : Nat) : Decidable (IsDate year month day) :=
  inferInstanceAs (Decidable (_ ∧ _))

structure Date where
  year : Int
  month : Nat
  day : Nat
  valid : IsDate year month day := by decide
deriving DecidableEq, Repr

namespace Date

def ofYMD? (year : Int) (month day : Nat) : Option Date :=
  if h : IsDate year month day then some ⟨year, month, day, h⟩ else none

/-- The day after, unless it is not representable. -/
def succ? (d : Date) : Option Date :=
  if d.day < monthLength d.year d.month then ofYMD? d.year d.month (d.day + 1)
  else if d.month < 12 then ofYMD? d.year (d.month + 1) 1
  else ofYMD? (d.year + 1) 1 1

/-- The day before, unless it is not representable. -/
def pred? (d : Date) : Option Date :=
  if 1 < d.day then ofYMD? d.year d.month (d.day - 1)
  else if 1 < d.month then ofYMD? d.year (d.month - 1) (monthLength d.year (d.month - 1))
  else ofYMD? (d.year - 1) 12 31

/-! ### Order -/

instance : Ord Date where
  compare :=
    compareLex (compareOn year) <|
    compareLex (compareOn month) (compareOn day)

instance : LT Date where lt a b := compare a b = .lt

instance : LE Date where le a b := compare a b ≠ .gt

instance (a b : Date) : Decidable (a < b) := inferInstanceAs (Decidable (compare a b = .lt))

instance (a b : Date) : Decidable (a ≤ b) := inferInstanceAs (Decidable (compare a b ≠ .gt))

/-! ### Counting days -/

/-- The days of a year before the first of a month. -/
def daysBeforeMonth (year : Int) : Nat → Nat
  | 0 => 0
  | 1 => 0
  | month + 2 => daysBeforeMonth year (month + 1) + monthLength year (month + 1)

/-- The days from the first of January of year 1 to the first of January of `year`. -/
def daysBeforeYear (year : Int) : Int :=
  365 * (year - 1) + (year - 1) / 4 - (year - 1) / 100 + (year - 1) / 400

/-- The number of a date when 0001-01-01 has number 1 and each following day one more. -/
def dayNumber (d : Date) : Int :=
  daysBeforeYear d.year + (daysBeforeMonth d.year d.month : Int) + (d.day : Int)

/-- The `n` dates that follow `d`, fewer at the end of the representable years. -/
def following : Nat → Date → List Date
  | 0, _ => []
  | n + 1, d =>
    match d.succ? with
    | some next => next :: following n next
    | none => []

/-- The dates after `a` and before `b`, in order. -/
def strictlyBetween (a b : Date) : List Date :=
  following (b.dayNumber - a.dayNumber - 1).toNat a

end Date

/-- The number of days in a month, counted from its first day to the first day of the next month;
    `none` when either is no representable date. -/
def daysInMonth? (year : Int) (month : Nat) : Option Nat := do
  let first ← Date.ofYMD? year month 1
  let next ← if month = 12 then Date.ofYMD? (year + 1) 1 1 else Date.ofYMD? year (month + 1) 1
  return (next.dayNumber - first.dayNumber).toNat

end Daybook
