/-
  Daybook/Calendar/DateText.lean
  ==============================
  **Dates as text.**  A date is written `YYYY-MM-DD`; a year outside 0 … 9999 has
  its sign in front and at least four digits.  Reading is more generous than
  writing: blanks may stand around each part, month and day may have one digit,
  and a sign lifts the limit of four digits on the year.
-/
import Daybook.Calendar.Date
import Daybook.Text.Decimal
import Daybook.Text.Parts

namespace Daybook.Date

open Daybook.Text

/-! ### Writing -/

/-- The year as four digits, or signed when it lies outside 0 … 9999. -/
def yearText (year : Int) : List Char :=
  if 0 ≤ year ∧ year ≤ 9999 then padded 4 year.toNat
  else (if year < 0 then '-' else '+') :: padded 4 year.natAbs

def chars (d : Date) : List Char :=
  yearText d.year ++ '-' :: padded 2 d.month ++ '-' :: padded 2 d.day

def text (d : Date) : String := String.ofList d.chars

/-- The year and month as text, the key under which the days of a month are filed. -/
def monthKey (d : Date) : String :=
  String.ofList (yearText d.year ++ '-' :: padded 2 d.month)

/-! ### Reading -/

/-- Reads a year: any number of digits after a sign, at most four without one. -/
def takeYear? (cs : List Char) : Option (Int × List Char) :=
  match cs with
  | '-' :: rest => (takeLongNumber? rest).map fun (n, after) => (-(n : Int), after)
  | '+' :: rest => (takeLongNumber? rest).map fun (n, after) => ((n : Int), after)
  | _ => (takeNumber? 4 cs).map fun (n, after) => ((n : Int), after)

def takeHyphen? (cs : List Char) : Option (List Char) :=
  match trimStart cs with
  | '-' :: rest => some rest
  | _ => none

/-- Reads a date that fills the whole text. -/
def read? (cs : List Char) : Option Date := do
  let (year, rest) ← takeYear? (trimStart cs)
  let rest ← takeHyphen? rest
  let (month, rest) ← takeNumber? 2 (trimStart rest)
  let rest ← takeHyphen? rest
  let (day, rest) ← takeNumber? 2 (trimStart rest)
  if isBlankText rest then ofYMD? year month day else none

end Daybook.Date
