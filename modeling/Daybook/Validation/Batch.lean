/-
  Daybook/Validation/Batch.lean
  =============================
  **Checking days against one another.**  A batch of days is looked at in the
  order of their dates.  Every date that is missing between two of them is
  reported; in full mode so is a month that is not complete (where that is asked
  for), and for each day: too few activities, a gap or an overlap between
  neighbouring activities, an activity that takes no time or too much, and a last
  activity that is not sleep.  Checks report; they never refuse a batch.
-/
import Daybook.Diagnostics
import Daybook.Record.Basic
import Daybook.Validation.Config

namespace Daybook

open Daybook.Text

structure Validator where
  config : ValidationConfig
  /-- The path that a day must end with. -/
  sleepPath : String
  file : String
deriving Repr

def neighbours {α : Type} (items : List α) : List (α × α) := items.zip items.tail

namespace Validator

/-- A finding filed at a line, about the lines from one to another. -/
def finding (v : Validator) (code : Code) (line first last : Nat) (message : String) :
    Diagnostic :=
  (Diagnostic.ofCode code line message).withSpan (.ofLines v.file first last)

/-! ### Dates -/

def missingDate (v : Validator) (before after : DailyLog) (date : Date) : Diagnostic :=
  v.finding .missingDate after.line before.line after.line
    s!"no daily log for {date.text} (between {before.date.text} and {after.date.text})"

/-- The dates missing between two logged days. -/
def checkPair (v : Validator) (before after : DailyLog) : List Diagnostic :=
  (Date.strictlyBetween before.date after.date).map (v.missingDate before after)

/-- The dates missing in a batch that is in order. -/
def checkContinuity (v : Validator) (logs : List DailyLog) : List Diagnostic :=
  (neighbours logs).flatMap fun (before, after) => v.checkPair before after

/-! ### Months -/

def sameMonth (a b : Date) : Bool := a.year == b.year && a.month == b.month

/-- The first log of each month of a batch that is in order. -/
def monthStarts : List DailyLog → List DailyLog
  | [] => []
  | log :: rest => log :: (monthStarts rest).filter fun other => !sameMonth log.date other.date

/-- How many dates of the month of `date` have a log. -/
def daysLogged (date : Date) (logs : List DailyLog) : Nat :=
  (((logs.map DailyLog.date).filter (sameMonth date)).eraseDups).length

/-- Whether the month of its first log is complete. -/
def checkMonth (v : Validator) (logs : List DailyLog) (first : DailyLog) : List Diagnostic :=
  match daysInMonth? first.date.year first.date.month with
  | none => []
  | some expected =>
    let present := daysLogged first.date logs
    if present = expected then []
    else
      let year := String.ofList (paddedInt 4 first.date.year)
      let month := String.ofList (padded 2 first.date.month)
      [v.finding .incorrectDayCount first.line first.line first.line
        s!"{year}-{month} has {present} days, expected {expected}"]

/-- The months that are not complete, of a batch that is in order. -/
def checkMonths (v : Validator) (logs : List DailyLog) : List Diagnostic :=
  (monthStarts logs).flatMap (v.checkMonth logs)

/-! ### One day -/

def checkActivityCount (v : Validator) (log : DailyLog) : List Diagnostic :=
  let count := log.activities.length
  if count < v.config.minActivities then
    [v.finding .tooFewActivities log.line log.line log.line
      s!"{log.date.text} has {count} activities, expected at least {v.config.minActivities}"]
  else []

/-- Whether an activity starts when the one before it ends. -/
def checkJoint (v : Validator) (date : Date) (before after : Activity) : List Diagnostic :=
  if before.finish = after.start then []
  else
    let finish := before.finish.hourMinuteText
    let start := after.start.hourMinuteText
    [v.finding .timeDiscontinuity after.line before.line after.line
      (s!"'{before.description}' ends at {finish} but " ++
        s!"'{after.description}' starts at {start} on {date.text}")]

/-- Whether the activities of a day follow on one another. -/
def checkJoints (v : Validator) (log : DailyLog) : List Diagnostic :=
  (neighbours log.activities).flatMap fun (before, after) => v.checkJoint log.date before after

/-- Whether the length of an activity is plausible. -/
def checkLength (v : Validator) (date : Date) (a : Activity) : List Diagnostic :=
  let finish := a.finish.hourMinuteText
  if a.seconds = 0 then
    [v.finding .zeroDuration a.line a.line a.line
      s!"'{a.description}' at {finish} on {date.text} has zero duration"]
  else if a.seconds > (v.config.maxActivityHours : Int) * 3600 then
    let minutes := a.seconds / 60
    [v.finding .durationTooLong a.line a.line a.line
      (s!"'{a.description}' ending {finish} on {date.text} " ++
        s!"lasts {minutes}m, more than {v.config.maxActivityHours}h")]
  else []

def checkSleep (v : Validator) (log : DailyLog) : List Diagnostic :=
  let last := log.activities.getLast?
  if last.map Activity.path = some v.sleepPath then []
  else
    let line := (last.map Activity.line).getD log.line
    [v.finding .missingSleepNight line line line
      s!"{log.date.text} does not end with '{v.sleepPath}'"]

def checkDay (v : Validator) (log : DailyLog) : List Diagnostic :=
  v.checkActivityCount log ++ v.checkJoints log ++
    log.activities.flatMap (v.checkLength log.date) ++ v.checkSleep log

/-! ### Batches -/

/-- What the checks of the mode find in one batch. -/
def checkBatch (v : Validator) (logs : List DailyLog) : List Diagnostic :=
  let logs := sortByDate logs
  match v.config.mode with
  | .none => []
  | .continuity => v.checkContinuity logs
  | .full =>
    v.checkContinuity logs ++
      (if v.config.checkDayCount then v.checkMonths logs else []) ++
      logs.flatMap v.checkDay

/-- What the checks find in the batches that a scope makes of the logs. -/
def check (v : Validator) (scope : ValidationScope) (logs : List DailyLog) : List Diagnostic :=
  match scope with
  | .range => v.checkBatch logs
  | .month => (groupByMonth logs).values.flatMap v.checkBatch

/-! ### Batches of a run -/

/-- Checks one batch in a run; how many findings the run gained comes with it. -/
def checkBatchIn (v : Validator) (run : Diagnostics) (logs : List DailyLog) : Diagnostics × Nat :=
  let (after, _) := run.emitAll (v.checkBatch logs)
  (after, after.size - run.size)

/-- Checks batches in a run, one after the other. -/
def checkBatchesIn (v : Validator) (run : Diagnostics) : List (List DailyLog) → Diagnostics × Nat
  | [] => (run, 0)
  | batch :: rest =>
    let (next, raised) := v.checkBatchIn run batch
    let (last, others) := v.checkBatchesIn next rest
    (last, raised + others)

/-- Checks the batches that a scope makes of the logs in a run. -/
def checkIn (v : Validator) (run : Diagnostics) (scope : ValidationScope) (logs : List DailyLog) :
    Diagnostics × Nat :=
  match scope with
  | .range => v.checkBatchIn run logs
  | .month => v.checkBatchesIn run (groupByMonth logs).values

end Validator

end Daybook
