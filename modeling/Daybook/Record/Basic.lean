/-
  Daybook/Record/Basic.lean
  =========================
  **Records of days.**  An activity is an interval of a day that ends at the time
  written on its line; a daily log holds the activities of one date in order,
  with what the header of the day says.  Logs are sorted by date and filed under the
  text of their month; both keep logs of one date in the order in which they came.
-/
import Daybook.Calendar.DateText
import Daybook.Calendar.TimeOfDay
import Daybook.Mapping

namespace Daybook

/-- What the header of a day says yes or no to. -/
structure DayFlags where
  status : Option Bool := none
  sleep : Option Bool := none
  exercise : Option Bool := none
deriving DecidableEq, Repr

/-- One interval of a day. -/
structure Activity where
  start : TimeOfDay
  finish : TimeOfDay
  /-- The description as written. -/
  description : String
  path : String
  seconds : Int
  remark : Option String := none
  /-- The line it was read from; 0 when it was not read from a file. -/
  line : Nat := 0
deriving DecidableEq, Repr

/-- The activity from one time to another, as long as the interval between them. -/
def Activity.between (start finish : TimeOfDay) (description path : String) : Activity :=
  { start, finish, description, path, seconds := intervalSeconds start finish }

structure DailyLog where
  date : Date
  flags : DayFlags := {}
  getup : Option TimeOfDay := none
  remark : Option String := none
  activities : List Activity := []
  /-- The line of the date; 0 when it was not read from a file. -/
  line : Nat := 0
deriving DecidableEq, Repr

/-- The length of all activities of a day together, kept in 64 bits: a total that does not fit
    there wraps around. -/
def DailyLog.totalSeconds (log : DailyLog) : Int :=
  let total : Int := log.activities.foldl (fun total activity => total + activity.seconds) 0
  total.bmod 18446744073709551616

/-! ### Months -/

def sortByDate (logs : List DailyLog) : List DailyLog :=
  logs.mergeSort fun a b => decide (a.date ≤ b.date)

/-- Files a log at the end of its month. -/
def fileLog (months : Mapping (List DailyLog)) (log : DailyLog) : Mapping (List DailyLog) :=
  let key := log.date.monthKey
  months.insert key ((months.get? key).getD [] ++ [log])

/-- Logs by month, each month in the order of its dates. -/
def groupByMonth (logs : List DailyLog) : Mapping (List DailyLog) :=
  (logs.foldl fileLog .empty).map sortByDate

end Daybook
