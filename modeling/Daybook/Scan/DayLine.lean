/-
  Daybook/Scan/DayLine.lean
  =========================
  **Lines inside a day.**  A header line with a value that its field accepts and
  an activity line change the block; any other line is reported and changes
  nothing.  Each line raises at most one finding.
-/
import Daybook.Line
import Daybook.Rules.Resolve
import Daybook.Scan.Block

namespace Daybook

/-! ### The setting of a scan -/

structure ScanSetup where
  table : RuleTable
  /-- Where the first activity starts on a day without a getup time. -/
  dayStart : TimeOfDay := .midnight
  /-- The year of short dates before the first full one. -/
  fallbackYear : Int
  file : String
deriving Repr

namespace ScanSetup

/-- A finding about a line, at columns of it or at the whole of it. -/
def finding (setup : ScanSetup) (code : Code) (line : Nat) (text : String)
    (columns : Option (Nat × Nat)) (message : String) : Diagnostic :=
  let span := Span.ofLine setup.file line text
  (Diagnostic.ofCode code line message).withSpan <|
    match columns with
    | some (first, last) => span.withColumns first last
    | none => span

end ScanSetup

/-! ### Header lines -/

/-- The entry that a header line makes, if its field accepts the value. -/
def HeaderEntry.read? (field : HeaderField) (value : String) : Option HeaderEntry :=
  match field with
  | .status => (readFlag? value).map .status
  | .sleep => (readFlag? value).map .sleep
  | .exercise => (readFlag? value).map .exercise
  | .getup => (TimeOfDay.ofHHMM? value.toList).map .getup
  | .remark => some (.remark value)

namespace Block

/-- What is wrong with a header line that stands to the block as `standing` says. -/
def headerFault? (b : Block) (field : HeaderField) (standing : HeaderWrite) :
    Option (Code × String) :=
  let date := b.date.text
  if field = .remark ∧ b.eventsStarted then
    some (.remarkAfterEvent, s!"remark after the first activity of {date}")
  else
    match standing with
    | .fresh => none
    | .afterEvents =>
      some (.headerOutOfOrder, s!"'{field.name}' header after the first activity of {date}")
    | .duplicate previousLine =>
      some (.duplicateHeader,
        s!"'{field.name}' already set on line {previousLine} for {date}; using the later value")
    | .outOfOrder later =>
      some (.headerOutOfOrder,
        s!"'{field.name}' header should come before '{later.name}' for {date}")

/-- Reads a header line whose value starts at `column`. -/
def readHeader (b : Block) (setup : ScanSetup) (line : Nat) (text : String) (field : HeaderField)
    (value : String) (column : Nat) : Block × List Diagnostic :=
  match HeaderEntry.read? field value with
  | none =>
    (b, [setup.finding .invalidLineFormat line text (some (column, max text.length column))
      s!"invalid line format: bad '{field.name}' value '{value}'"])
  | some entry =>
    let (noted, standing) := b.noteHeader setup.table field line
    (noted.write entry,
      match b.headerFault? field standing with
      | some (code, message) => [setup.finding code line text none message]
      | none => [])

/-! ### Activity lines -/

/-- The activity that a line adds to the block, and whether some rule knows it. -/
def nextActivity (b : Block) (setup : ScanSetup) (line : Nat) (written : WrittenActivity) :
    Activity × Resolution :=
  let start := b.nextStart setup.dayStart
  let seconds := intervalSeconds start written.endTime
  let resolution := setup.table.resolve written.description seconds
  ({ start, finish := written.endTime, description := written.description,
     path := resolution.path, seconds, remark := written.remark, line }, resolution)

def unrecognized (b : Block) (setup : ScanSetup) (line : Nat) (text : String)
    (written : WrittenActivity) : Diagnostic :=
  let description := written.description
  setup.finding .unrecognizedActivity line text
    (some (written.column, written.column + (description.length - 1)))
    s!"unrecognized activity '{description}' on {b.date.text}; using it as its own category"

def readActivity (b : Block) (setup : ScanSetup) (line : Nat) (text : String)
    (written : WrittenActivity) : Block × List Diagnostic :=
  let (activity, resolution) := b.nextActivity setup line written
  if resolution.isWake && b.awaitsWake then (b.openWithWake written.endTime line, [])
  else
    (b.pushActivity activity,
      if resolution.recognized then [] else [b.unrecognized setup line text written])

/-! ### Any line -/

def readLine (b : Block) (setup : ScanSetup) (line : Nat) (text : String) :
    LineKind → Block × List Diagnostic
  | .blank => (b, [])
  | .date _ _ _ => (b, [])
  | .header field value column => b.readHeader setup line text field value column
  | .activity written => b.readActivity setup line text written
  | .invalid fault columnStart columnEnd =>
    (b, [setup.finding .invalidLineFormat line text (some (columnStart, columnEnd))
      s!"invalid line format: {fault.message}"])

end Block

end Daybook
