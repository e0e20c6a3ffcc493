/-
  Daybook/Line.lean
  =================
  **What a line says.**  A line is blank, a date, a header, an activity, or
  nothing of these.  The forms are tried in this order:

      2025_01_15  or  01_15           a date, its year optional
      Remark: slept badly             a remark, opened as the rules say
      Status:1                        another header field
      0930 coding // with tests       an activity ending at 09:30, with a remark

  The text after the time of an activity may not start with `_`, so that a
  mistyped date is not taken for an activity.  Columns count characters from 1.
-/
import Daybook.Calendar.TimeOfDay
import Daybook.Rules.Table
import Daybook.Text.Parts

namespace Daybook

open Daybook.Text

/-! ### Kinds of lines -/

/-- Why a line is nothing that a day can use. -/
inductive LineFault where
  /-- The four digits in front are no time of day. -/
  | badTime (digits : String)
  | noDescription
  | unrecognized
deriving DecidableEq, Repr

def LineFault.message : LineFault → String
  | badTime digits => s!"invalid time '{digits}'"
  | noDescription => "activity has no description"
  | unrecognized => "unrecognized line"

structure WrittenActivity where
  endTime : TimeOfDay
  description : String
  remark : Option String
  column : Nat
deriving DecidableEq, Repr

inductive LineKind where
  | blank
  | date (year : Option Int) (month day : Nat)
  /-- A header with its value, which starts at `column`. -/
  | header (field : HeaderField) (value : String) (column : Nat)
  | activity (written : WrittenActivity)
  /-- Nothing usable; the columns show what is at fault. -/
  | invalid (fault : LineFault) (columnStart columnEnd : Nat)
deriving DecidableEq, Repr

/-! ### Dates -/

/-- Reads a number of exactly `width` digits. -/
def readFixed? (width : Nat) (cs : List Char) : Option Nat :=
  if cs.length = width ∧ cs.all Char.isDigit then some (digitsValue cs) else none

/-- Reads a date line, `YYYY_MM_DD` or `MM_DD`; the numbers need not make a date. -/
def dateLine? (cs : List Char) : Option LineKind :=
  match splitAt '_' cs with
  | [year, month, day] => do
    let year ← readFixed? 4 year
    let month ← readFixed? 2 month
    let day ← readFixed? 2 day
    return .date (some (year : Int)) month day
  | [month, day] => do
    let month ← readFixed? 2 month
    let day ← readFixed? 2 day
    return .date none month day
  | _ => none

/-! ### Headers -/

/-- Reads a line of a field that opens with `lead`. -/
def headerLine? (field : HeaderField) (lead : String) (cs : List Char) : Option LineKind :=
  (lead.toList.isPrefixOf? cs).map fun value =>
    .header field (String.ofList (trim value)) (lead.length + 1)

/-- Reads a line of a field with an opening of its own. -/
def fieldLine? (cs : List Char) : Option LineKind :=
  HeaderField.all.findSome? fun field => field.lead?.bind fun lead => headerLine? field lead cs

/-- Reads the value of a yes-or-no field: `0` or `1`. -/
def readFlag? (s : String) : Option Bool :=
  match trim s.toList with
  | ['0'] => some false
  | ['1'] => some true
  | _ => none

/-! ### Activities -/

/-- What stands between the description of an activity and its remark. -/
def remarkSeparator : List Char := [' ', '/', '/', ' ']

/-- The number of columns of a line; an empty one still has a column. -/
def lineWidth (cs : List Char) : Nat := max cs.length 1

/-- Splits a description and its remark, both without the blanks around them; a blank remark is
    none. -/
def splitRemark (text : List Char) : List Char × Option (List Char) :=
  match cutAt? remarkSeparator text with
  | none => (trim text, none)
  | some (description, remark) =>
    let remark := trim remark
    (trim description, if remark.isEmpty then none else some remark)

/-- Splits the four digits of a time off the text after it, where a line has the form of an
    activity. -/
def timedText? (cs : List Char) : Option (List Char × List Char) :=
  let time := cs.take 4
  let text := trimStart (cs.drop 4)
  match text with
  | [] => none
  | first :: rest =>
    if time.length = 4 ∧ time.all Char.isDigit ∧ first ≠ '_' ∧ '\n' ∉ rest then some (time, text)
    else none

/-- Reads a line with the form of an activity. -/
def activityLine? (cs : List Char) : Option LineKind :=
  (timedText? cs).map fun (time, text) =>
    match TimeOfDay.ofHHMM? time with
    | none => .invalid (.badTime (String.ofList time)) 1 4
    | some endTime =>
      let column := cs.length - text.length + 1
      let (description, remark) := splitRemark text
      if description.isEmpty then .invalid .noDescription column (lineWidth cs)
      else
        .activity {
          endTime, column
          description := String.ofList description
          remark := remark.map String.ofList }

/-! ### Any line -/

/-- What a line is under the rules.  Blanks at the ends of the line are taken as they are. -/
def classify (table : RuleTable) (line : String) : LineKind :=
  let cs := line.toList
  if cs.isEmpty then .blank
  else
    ((dateLine? cs).or <|
      (headerLine? .remark table.remarkLead cs).or <|
      (fieldLine? cs).or <|
      activityLine? cs).getD (.invalid .unrecognized 1 (lineWidth cs))

end Daybook
