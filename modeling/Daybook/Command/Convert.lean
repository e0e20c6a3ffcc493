/-
  Daybook/Command/Convert.lean
  ============================
  **The convert command.**  Converts log files and prints a summary of each, or
  all records as JSON.  When some file cannot be read, nothing is printed and the
  first such file is named.  Either way the findings of all files, those of
  unreadable ones included, are added to the report file.
-/
import Daybook.Command.Script
import Daybook.Json.Writer
import Daybook.Settings.Basic

namespace Daybook

structure ConvertRequest where
  files : List String
  json : Bool := false
  /-- A report file other than that of the settings. -/
  report : Option String := none
  /-- A validation mode other than that of the settings. -/
  mode : Option ValidationMode := none
deriving DecidableEq, Repr

namespace Outcome

/-- The summary of an outcome: a line for the log, and one for each month. -/
def summary (o : Outcome) : String :=
  let status := if o.validationFailed then "FAILED" else "ok"
  s!"{o.source}: {o.logs.length} days, {o.diagnostics.length} diagnostics [{status}]\n" ++
    String.join (o.months.entries.map fun (month, days) => s!"  {month}: {days.length} days\n")

def summaryJson (o : Outcome) : Json :=
  .object
    [("source", .string o.source),
     ("validation_failed", .boolean o.validationFailed),
     ("diagnostics", .natural o.diagnostics.length),
     ("months", o.months.toJson logsToJson)]

end Outcome

def printedOutcomes (json : Bool) (outcomes : List Outcome) : String :=
  if json then Json.pretty (.array (outcomes.map Outcome.summaryJson)) ++ "\n"
  else String.join (outcomes.map Outcome.summary)

/-- All outcomes, or the first path without one and why. -/
def allOutcomes : List (String × Except ReadError Outcome) →
    Except (String × ReadError) (List Outcome)
  | [] => .ok []
  | (path, .error cause) :: _ => .error (path, cause)
  | (_, .ok outcome) :: rest =>
    match allOutcomes rest with
    | .error failure => .error failure
    | .ok outcomes => .ok (outcome :: outcomes)

namespace ConvertRequest

/-- Converts the files and adds the report of all findings to the report file, whatever comes of
    that.  Summaries are printed before, unless some file has none. -/
def script (request : ConvertRequest) (settings : Settings) (currentYear : Int) : Script :=
  match Converter.ofConfig (settings.conversion.withMode request.mode) currentYear with
  | .error fault => .finish (some (.badTable fault))
  | .ok converter =>
    .read request.files fun read =>
      let (shared, results) := converter.convertFiles read .fresh request.files
      let writeReport (failure : Option CommandError) : Script :=
        .append (request.report.getD settings.reportPath) (Report.render shared) fun _ =>
          .finish failure
      match allOutcomes results with
      | .error (path, cause) => writeReport (some (.notConverted path cause))
      | .ok outcomes =>
        let failed := outcomes.countP Outcome.validationFailed
        .print (printedOutcomes request.json outcomes) <|
          writeReport (if failed = 0 then none else some (.logsFailed failed outcomes.length))

def run (request : ConvertRequest) (settings : Settings) (currentYear : Int)
    (read : String → Except FileError ByteArray) : CommandResult :=
  (request.script settings currentYear).result read

end ConvertRequest

end Daybook
