/-
  Daybook/Diagnostic/Code.lean
  ============================
  **What a finding is about.**  A closed list of codes, each with a stable name,
  a heading for reports, the family it belongs to and the severity it is raised
  at.  The order of `Code.all` decides between findings on one line, and a name
  belongs to one code (`Code.ofName?_name`).
-/

namespace Daybook

/-! ### Severity -/

inductive Severity where
  | info
  | warn
  | error
deriving DecidableEq, Repr, Inhabited

namespace Severity

/-- Every severity, the mildest first. -/
def all : List Severity := [.info, .warn, .error]

def name : Severity → String
  | .info => "info"
  | .warn => "warn"
  | .error => "error"

def ofName? (s : String) : Option Severity := all.find? fun severity => severity.name == s

def rank (s : Severity) : Nat := all.idxOf s

instance : Ord Severity where compare := compareOn rank

theorem ofName?_name (s : Severity) : ofName? s.name = some s := by
  cases s <;> decide

end Severity

/-! ### Families -/

inductive Family where
  /-- Raised while the lines of a log are read. -/
  | sourceFormat
  /-- An activity that no rule maps to a category. -/
  | categoryResolution
  /-- Raised when the days of a batch are checked. -/
  | logicalConsistency
  /-- A report that could not be delivered. -/
  | reporting
deriving DecidableEq, Repr

def Family.name : Family → String
  | .sourceFormat => "source_format"
  | .categoryResolution => "category_resolution"
  | .logicalConsistency => "logical_consistency"
  | .reporting => "reporting"

/-! ### Codes -/

inductive Code where
  | invalidLineFormat
  | noDateAtStart
  | remarkAfterEvent
  | missingYear
  | duplicateHeader
  | headerOutOfOrder
  | missingHeader
  | invalidDate
  | duplicateDate
  | unrecognizedActivity
  | missingDate
  | incorrectDayCount
  | timeDiscontinuity
  | missingSleepNight
  | tooFewActivities
  | zeroDuration
  | durationTooLong
  | reportWriteFailed
deriving DecidableEq, Repr, Inhabited

namespace Code

/-- Every code, in the order that sorts findings on one line. -/
def all : List Code :=
  [.invalidLineFormat, .noDateAtStart, .remarkAfterEvent, .missingYear, .duplicateHeader,
   .headerOutOfOrder, .missingHeader, .invalidDate, .duplicateDate, .unrecognizedActivity,
   .missingDate, .incorrectDayCount, .timeDiscontinuity, .missingSleepNight, .tooFewActivities,
   .zeroDuration, .durationTooLong, .reportWriteFailed]

/-- The stable name of a code, as reports and records show it. -/
def name : Code → String
  | .invalidLineFormat => "source_invalid_line_format"
  | .noDateAtStart => "source_no_date_at_start"
  | .remarkAfterEvent => "source_remark_after_event"
  | .missingYear => "source_missing_year_header"
  | .duplicateHeader => "source_duplicate_header"
  | .headerOutOfOrder => "source_header_out_of_order"
  | .missingHeader => "source_missing_header"
  | .invalidDate => "source_invalid_date"
  | .duplicateDate => "source_duplicate_date"
  | .unrecognizedActivity => "unrecognized_activity"
  | .missingDate => "date_continuity"
  | .incorrectDayCount => "incorrect_day_count_for_month"
  | .timeDiscontinuity => "time_discontinuity"
  | .missingSleepNight => "missing_sleep_night"
  | .tooFewActivities => "too_few_activities"
  | .zeroDuration => "zero_duration_activity"
  | .durationTooLong => "activity_duration_too_long"
  | .reportWriteFailed => "report_write_failed"

/-- The heading of a code's section in a report. -/
def title : Code → String
  | .invalidLineFormat => "Invalid line format"
  | .noDateAtStart => "Content before the first date"
  | .remarkAfterEvent => "Remark after the first activity"
  | .missingYear => "Short date without a year"
  | .duplicateHeader => "Duplicate header field"
  | .headerOutOfOrder => "Header field out of order"
  | .missingHeader => "Missing header field"
  | .invalidDate => "Invalid date"
  | .duplicateDate => "Duplicate date"
  | .unrecognizedActivity => "Unrecognized activity"
  | .missingDate => "Missing dates"
  | .incorrectDayCount => "Incorrect day count for month"
  | .timeDiscontinuity => "Time discontinuity"
  | .missingSleepNight => "Missing night sleep"
  | .tooFewActivities => "Too few activities"
  | .zeroDuration => "Zero-duration activity"
  | .durationTooLong => "Activity too long"
  | .reportWriteFailed => "Report write failure"

def family : Code → Family
  | .invalidLineFormat | .noDateAtStart | .remarkAfterEvent | .missingYear | .duplicateHeader
  | .headerOutOfOrder | .missingHeader | .invalidDate | .duplicateDate => .sourceFormat
  | .unrecognizedActivity => .categoryResolution
  | .missingDate | .incorrectDayCount | .timeDiscontinuity | .missingSleepNight
  | .tooFewActivities | .zeroDuration | .durationTooLong => .logicalConsistency
  | .reportWriteFailed => .reporting

def defaultSeverity : Code → Severity
  | .invalidLineFormat | .noDateAtStart | .invalidDate | .duplicateDate => .error
  | .remarkAfterEvent | .missingYear | .duplicateHeader | .headerOutOfOrder | .missingHeader
  | .unrecognizedActivity | .reportWriteFailed => .warn
  | .missingDate | .incorrectDayCount | .timeDiscontinuity | .missingSleepNight
  | .tooFewActivities | .zeroDuration | .durationTooLong => .error

def rank (c : Code) : Nat := all.idxOf c

def ofName? (s : String) : Option Code := all.find? fun code => code.name == s

def unknownMessage (s : String) : String := s!"unknown diagnostic code: {s}"

instance : Ord Code where compare := compareOn rank

theorem mem_all (c : Code) : c ∈ all := by cases c <;> decide

theorem ofName?_name (c : Code) : ofName? c.name = some c := by cases c <;> decide

end Code

end Daybook
