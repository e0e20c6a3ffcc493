/-
  Daybook/Conversion/Converter.lean
  =================================
  **Converting logs.**  A `Converter` turns the bytes of a log into the records of
  its days: it scans the lines, closes days with the sleep before the next one,
  and validates what came out.  Everything it finds is reported; the only failure
  is a log that cannot be read to its end, and then what was found up to there
  still counts.
-/
import Daybook.Conversion.Config
import Daybook.Conversion.Sleep
import Daybook.Files.Error
import Daybook.Report
import Daybook.Scan.Scanner
import Daybook.Text.Lines
import Daybook.Validation.Batch

namespace Daybook

open Daybook.Text

/-! ### Results -/

structure Outcome where
  source : String
  /-- The days in the order of the log. -/
  logs : List DailyLog
  /-- What this conversion found, in order. -/
  diagnostics : List Diagnostic
deriving DecidableEq, Repr

namespace Outcome

def validationFailed (o : Outcome) : Bool := o.diagnostics.any fun d => d.isError && d.isLogical

def months (o : Outcome) : Mapping (List DailyLog) := groupByMonth o.logs

def report (o : Outcome) : String := Report.render (Diagnostics.quiet.emitAll o.diagnostics).1

end Outcome

structure ReadError where
  source : String
  cause : FileError
deriving DecidableEq, Repr

/-- The wording of the failure, without its cause. -/
def ReadError.message (e : ReadError) : String := "failed to read " ++ e.source

/-! ### Converters -/

structure Converter where
  table : RuleTable
  validation : ValidationConfig
  scope : ValidationScope
  dayStart : TimeOfDay
  fallbackYear : Int
  linksSleep : Bool
deriving Repr

namespace Converter

/-- The converter of some settings in a current year, or what is wrong with the rules. -/
def ofConfig (config : ConversionConfig) (currentYear : Int) : Except RuleError Converter :=
  match RuleTable.ofConfig config.rules with
  | .error fault => .error fault
  | .ok table =>
    .ok {
      table
      validation := config.validation
      scope := config.scope
      dayStart := config.dayStart
      fallbackYear := config.fallbackYear.getD currentYear
      linksSleep := config.linksSleep }

def scanSetup (c : Converter) (name : String) : ScanSetup :=
  { table := c.table, dayStart := c.dayStart, fallbackYear := c.fallbackYear, file := name }

def validator (c : Converter) (name : String) : Validator :=
  { config := c.validation, sleepPath := c.table.sleepPath, file := name }

def validate (c : Converter) (name : String) (logs : List DailyLog) : List Diagnostic :=
  (c.validator name).check c.scope logs

def records (c : Converter) (days : List ScannedDay) : List DailyLog :=
  (if c.linksSleep then (linkSleep c.table days).days else days).map ScannedDay.log

/-- Validates records in a run; how many findings the run gained comes with it. -/
def validateIn (c : Converter) (name : String) (logs : List DailyLog) (run : Diagnostics) :
    Diagnostics × Nat :=
  (c.validator name).checkIn run c.scope logs

/-- Converts a log in a run.  What is found is added to the findings of the run, and those that it
    gained since the beginning, in order, are the ones of the outcome. -/
def convert (c : Converter) (name : String) (bytes : ByteArray) (run : Diagnostics) :
    Diagnostics × Except ReadError Outcome :=
  let mark := run.size
  let setup := c.scanSetup name
  let text := readLines bytes
  if text.complete then
    let (days, findings) := setup.scan text.lines
    let (scanned, _) := run.emitAll findings
    let logs := c.records days
    let (validated, _) := c.validateIn name logs scanned
    (validated, .ok { source := name, logs, diagnostics := validated.since mark })
  else
    let (_, _, findings) := ({} : Scanner).steps setup 1 text.lines
    ((run.emitAll findings).1, .error { source := name, cause := .notText })

/-! ### Files -/

def convertFile (c : Converter) (read : String → Except FileError ByteArray) (path : String)
    (run : Diagnostics) : Diagnostics × Except ReadError Outcome :=
  match read path with
  | .error cause => (run, .error { source := path, cause })
  | .ok bytes => c.convert path bytes run

/-- Converts files, each in a run of its own; the findings of the runs are added to those they
    share, one run after the other. -/
def convertFiles (c : Converter) (read : String → Except FileError ByteArray)
    (shared : Diagnostics) :
    List String → Diagnostics × List (String × Except ReadError Outcome)
  | [] => (shared, [])
  | path :: rest =>
    let (run, result) := c.convertFile read path .quiet
    let (last, results) := c.convertFiles read (shared.absorb run).1 rest
    (last, (path, result) :: results)

end Converter

end Daybook
