/-
  Daybook/Scan/Block.lean
  =======================
  **A day in the making.**  A `Block` gathers what the lines after a date line
  say.  Each activity starts where the one before it ended; the first one starts
  at the wake line that opened the day, else at the getup time, else at the usual
  start of a day.  `noteHeader` judges a header line by what the block has seen
  before it, and `close` reports the header fields that never came.
-/
import Daybook.Diagnostic.Finding
import Daybook.Record.Basic
import Daybook.Rules.Table

namespace Daybook

/-- A day being read. -/
structure Block where
  date : Date
  /-- The line of the date, and its text. -/
  line : Nat
  dateText : String
  flags : DayFlags := {}
  getup : Option TimeOfDay := none
  /-- When a wake line opened the day. -/
  wake : Option TimeOfDay := none
  remarks : List String := []
  activities : List Activity := []
  /-- The header fields noted so far with their lines, the latest first. -/
  notes : List (HeaderField × Nat) := []
  /-- The line of the first activity or wake line. -/
  eventLine : Option Nat := none
deriving DecidableEq, Repr

/-- How a header line stands to what came before it. -/
inductive HeaderWrite where
  /-- The field is new and at its place. -/
  | fresh
  /-- The field stood on an earlier line already. -/
  | duplicate (previousLine : Nat)
  /-- A field that belongs later stood before it. -/
  | outOfOrder (later : HeaderField)
  | afterEvents
deriving DecidableEq, Repr

/-- A header value that its field accepts. -/
inductive HeaderEntry where
  | status (value : Bool)
  | sleep (value : Bool)
  | exercise (value : Bool)
  | getup (time : TimeOfDay)
  | remark (text : String)
deriving DecidableEq, Repr

structure ScannedDay where
  log : DailyLog
  /-- When a wake line opened the day. -/
  wake : Option TimeOfDay := none
deriving DecidableEq, Repr

namespace Block

/-! ### Headers -/

def eventsStarted (b : Block) : Bool := b.eventLine.isSome

def hasNoted (b : Block) (field : HeaderField) : Bool := (b.notes.lookup field).isSome

/-- The last of the noted fields that belong after `field`. -/
def laterNoted? (b : Block) (table : RuleTable) (field : HeaderField) : Option HeaderField :=
  match table.position? field with
  | none => none
  | some position => ((table.headerOrder.drop (position + 1)).filter b.hasNoted).getLast?

/-- How a line of `field` stands to the block.  Remarks add up, so they are neither too late nor
    repeated. -/
def judgeHeader (b : Block) (table : RuleTable) (field : HeaderField) : HeaderWrite :=
  if field ≠ .remark ∧ b.eventsStarted then .afterEvents
  else
    match b.notes.lookup field, decide (field = .remark) with
    | some previousLine, false => .duplicate previousLine
    | _, _ =>
      match b.laterNoted? table field with
      | some later => .outOfOrder later
      | none => .fresh

/-- Notes a line of `field`, and how it stands to the block. -/
def noteHeader (b : Block) (table : RuleTable) (field : HeaderField) (line : Nat) :
    Block × HeaderWrite :=
  ({ b with notes := (field, line) :: b.notes }, b.judgeHeader table field)

/-- Takes over a header value; the later of two values counts, and remarks that are not empty add
    up. -/
def write (b : Block) : HeaderEntry → Block
  | .status value => { b with flags := { b.flags with status := some value } }
  | .sleep value => { b with flags := { b.flags with sleep := some value } }
  | .exercise value => { b with flags := { b.flags with exercise := some value } }
  | .getup time => { b with getup := some time }
  | .remark text => if text.isEmpty then b else { b with remarks := b.remarks ++ [text] }

/-! ### Activities -/

/-- Whether a wake line would open the day, and not end a nap. -/
def awaitsWake (b : Block) : Bool := b.activities.isEmpty && b.wake.isNone

/-- Opens the day with a wake line: the day has slept, and got up then unless the header says
    otherwise. -/
def openWithWake (b : Block) (time : TimeOfDay) (line : Nat) : Block :=
  { b with
    wake := some time
    getup := b.getup.or (some time)
    flags := { b.flags with sleep := some true }
    eventLine := b.eventLine.or (some line) }

def nextStart (b : Block) (dayStart : TimeOfDay) : TimeOfDay :=
  (((b.activities.getLast?.map Activity.finish).or b.wake).or b.getup).getD dayStart

def pushActivity (b : Block) (activity : Activity) : Block :=
  { b with
    activities := b.activities ++ [activity]
    eventLine := b.eventLine.or (some activity.line) }

/-! ### Closing -/

/-- Whether the day says something on a field; a remark is never missed. -/
def hasValue (b : Block) : HeaderField → Bool
  | .status => b.flags.status.isSome
  | .sleep => b.flags.sleep.isSome
  | .exercise => b.flags.exercise.isSome
  | .getup => b.getup.isSome
  | .remark => true

def missingHeader (b : Block) (file : String) (field : HeaderField) : Diagnostic :=
  (Diagnostic.ofCode .missingHeader b.line s!"{b.date.text} has no '{field.name}' header").withSpan
    (.ofLine file b.line b.dateText)

/-- The fields that the rules ask for and the day does not have, in the order of the rules. -/
def missingFields (b : Block) (table : RuleTable) : List HeaderField :=
  table.headerOrder.filter fun field => !b.hasValue field

def remarkText (b : Block) : Option String :=
  if b.remarks.isEmpty then none else some ("\n".intercalate b.remarks)

def log (b : Block) : DailyLog :=
  { date := b.date, flags := b.flags, getup := b.getup, remark := b.remarkText,
    activities := b.activities, line := b.line }

/-- Ends the day: its record, and a finding for each missing header field. -/
def close (b : Block) (table : RuleTable) (file : String) : ScannedDay × List Diagnostic :=
  ({ log := b.log, wake := b.wake }, (b.missingFields table).map (b.missingHeader file))

end Block

end Daybook
