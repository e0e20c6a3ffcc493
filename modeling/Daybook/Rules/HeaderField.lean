/-
  Daybook/Rules/HeaderField.lean
  ==============================
  **Header fields.**  What may stand between a date line and the first activity
  of a day.  Four fields open their lines with a fixed word; the opening of a
  remark is a matter of the rules.
-/

namespace Daybook

inductive HeaderField where
  | status
  | sleep
  | exercise
  | getup
  | remark
deriving DecidableEq, Repr

namespace HeaderField

def all : List HeaderField := [status, sleep, exercise, getup, remark]

def name : HeaderField → String
  | status => "status"
  | sleep => "sleep"
  | exercise => "exercise"
  | getup => "getup"
  | remark => "remark"

/-- The text that opens a line of the field, unless the rules choose it. -/
def lead? : HeaderField → Option String
  | status => some "Status:"
  | sleep => some "Sleep:"
  | exercise => some "Exercise:"
  | getup => some "Getup:"
  | remark => none

def ofName? (s : String) : Option HeaderField := all.find? fun field => field.name == s

def unknownMessage (s : String) : String := s!"invalid header field: {s}"

theorem ofName?_name (field : HeaderField) : ofName? field.name = some field := by
  cases field <;> decide

end HeaderField

end Daybook
