/-
  Daybook/Conversion/Sleep.lean
  =============================
  **Sleep between days.**  Each day that opened with a wake line closes the day
  before it with sleep, from the end of its last activity to that line.  A day
  without activities, or one that ends with sleep already, stays.  The days are
  gone through once in their order, and each is found by its date, so the day
  that is closed may stand before or after the one that closes it.
-/
import Daybook.Rules.Resolve
import Daybook.Scan.Block

namespace Daybook

/-- A log with one more activity, or none. -/
def DailyLog.closedBy (log : DailyLog) (sleep : Option Activity) : DailyLog :=
  { log with activities := log.activities ++ sleep.toList }

def ScannedDay.closedBy (day : ScannedDay) (sleep : Option Activity) : ScannedDay :=
  { day with log := day.log.closedBy sleep }

/-- The place of the last day of a date. -/
def placeOf? (date : Date) : List ScannedDay → Option Nat
  | [] => none
  | day :: rest =>
    match placeOf? date rest with
    | some place => some (place + 1)
    | none => if day.log.date = date then some 0 else none

/-- The sleep from the end of a log to a wake time, which is read from a line; none for a log that
    has no activity or ends with sleep. -/
def sleepUntil? (table : RuleTable) (log : DailyLog) (wake : TimeOfDay) (line : Nat) :
    Option Activity :=
  match log.activities.getLast? with
  | none => none
  | some last =>
    if last.path = table.sleepPath then none
    else
      some { Activity.between last.finish wake table.sleepLeaf table.sleepPath with line }

/-- Days on the way, and how many of them are closed with sleep so far. -/
structure Linked where
  days : List ScannedDay
  count : Nat := 0
deriving DecidableEq, Repr

namespace Linked

/-- The place of the day before the one at a place, and that day closed with sleep. -/
def closing? (l : Linked) (table : RuleTable) (place? : Date → Option Nat) (i : Nat) :
    Option (Nat × ScannedDay) := do
  let next ← l.days[i]?
  let wake ← next.wake
  let place ← next.log.date.pred?.bind place?
  let day ← l.days[place]?
  let sleep ← sleepUntil? table day.log wake next.log.line
  some (place, day.closedBy (some sleep))

def linkAt (table : RuleTable) (place? : Date → Option Nat) (l : Linked) (i : Nat) : Linked :=
  match l.closing? table place? i with
  | none => l
  | some (place, day) => { days := l.days.set place day, count := l.count + 1 }

end Linked

def linkSleep (table : RuleTable) (days : List ScannedDay) : Linked :=
  (List.range days.length).foldl (Linked.linkAt table fun date => placeOf? date days) { days }

end Daybook
