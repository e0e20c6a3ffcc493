/-
  Daybook/Calendar/TimeOfDay.lean
  ===============================
  **Times of day.**  Hours, minutes, seconds and nanoseconds; second 60 is a leap
  second, kept as written but counted as second 59.  `intervalSeconds` is the
  time from one time of day to another, wrapping at midnight.
-/
import Daybook.Text.Decimal
import Daybook.Text.Parts

namespace Daybook

open Daybook.Text

/-- Whether the parts make a time of day. -/
def IsTimeOfDay (hour minute second nanosecond : Nat) : Prop :=
  hour < 24 ∧ minute < 60 ∧ second ≤ 60 ∧ nanosecond < 1000000000

instance (hour minute second nanosecond : Nat) :
    Decidable (IsTimeOfDay hour minute second nanosecond) :=
  inferInstanceAs (Decidable (_ ∧ _))

structure TimeOfDay where
  hour : Nat
  minute : Nat
  second : Nat := 0
  nanosecond : Nat := 0
  valid : IsTimeOfDay hour minute second nanosecond := by decide
deriving DecidableEq, Repr

namespace TimeOfDay

def ofParts? (hour minute second nanosecond : Nat) : Option TimeOfDay :=
  if h : IsTimeOfDay hour minute second nanosecond then
    some ⟨hour, minute, second, nanosecond, h⟩
  else none

def midnight : TimeOfDay := { hour := 0, minute := 0 }

/-- The whole seconds since midnight; a leap second counts as the second before it. -/
def secondOfDay (t : TimeOfDay) : Nat := t.hour * 3600 + t.minute * 60 + min t.second 59

/-! ### Writing -/

/-- The fraction of a second: nothing, or a point and 3, 6 or 9 digits, as few as are exact. -/
def fractionText (nanosecond : Nat) : List Char :=
  if nanosecond = 0 then []
  else if nanosecond % 1000000 = 0 then '.' :: padded 3 (nanosecond / 1000000)
  else if nanosecond % 1000 = 0 then '.' :: padded 6 (nanosecond / 1000)
  else '.' :: padded 9 nanosecond

/-- The characters of a written time, `HH:MM:SS` and the fraction. -/
def chars (t : TimeOfDay) : List Char :=
  padded 2 t.hour ++ ':' :: padded 2 t.minute ++ ':' :: padded 2 t.second ++
    fractionText t.nanosecond

def text (t : TimeOfDay) : String := String.ofList t.chars

/-- The time to the minute, `HH:MM`, as messages show it. -/
def hourMinuteText (t : TimeOfDay) : String :=
  String.ofList (padded 2 t.hour ++ ':' :: padded 2 t.minute)

/-! ### Reading -/

/-- Reads `HHMM`: exactly four digits that name a minute of the day. -/
def ofHHMM? (cs : List Char) : Option TimeOfDay :=
  if cs.length = 4 ∧ cs.all Char.isDigit then
    ofParts? (digitsValue (cs.take 2)) (digitsValue (cs.drop 2)) 0 0
  else none

/-- Reads the fraction of a second as nanoseconds: a point and digits, those after the ninth
    dropped; without a point there is no fraction. -/
def takeFraction? (cs : List Char) : Option (Nat × List Char) :=
  match cs with
  | '.' :: rest =>
    let run := rest.takeWhile Char.isDigit
    if run.isEmpty then none
    else
      let kept := run.take 9
      some (digitsValue (kept ++ List.replicate (9 - kept.length) '0'), rest.drop run.length)
  | _ => some (0, cs)

def takeColon? (cs : List Char) : Option (List Char) :=
  match trimStart cs with
  | ':' :: rest => some rest
  | _ => none

/-- Reads a time that fills the whole text, `H:M` or `H:M:S` with a fraction; each part has one or
    two digits and blanks may stand around it. -/
def read? (cs : List Char) : Option TimeOfDay := do
  let (hour, rest) ← takeNumber? 2 (trimStart cs)
  let rest ← takeColon? rest
  let (minute, rest) ← takeNumber? 2 (trimStart rest)
  if isBlankText rest then ofParts? hour minute 0 0
  else
    let rest ← takeColon? rest
    let (second, rest) ← takeNumber? 2 (trimStart rest)
    let (nanosecond, rest) ← takeFraction? rest
    if isBlankText rest then ofParts? hour minute second nanosecond else none

end TimeOfDay

/-! ### Intervals -/

/-- The seconds in a day, at which intervals wrap. -/
def secondsPerDay : Int := 86400

/-- The seconds from `start` to `finish`, past midnight when `finish` is earlier; equal times are
    no time apart, never a whole day. -/
def intervalSeconds (start finish : TimeOfDay) : Int :=
  ((finish.secondOfDay : Int) - (start.secondOfDay : Int)) % secondsPerDay

end Daybook
