/-
  Daybook/Command/Validate.lean
  =============================
  **The validate and rules commands.**  The first checks the records in a JSON file,
  prints what it finds, and fails if that is an error; the file is read before the
  rules are looked at.  The other prints the rules of the settings as JSON, as they
  were written, if they make a table.
-/
import Daybook.Command.Result
import Daybook.Json.Reader
import Daybook.Json.Writer
import Daybook.Settings.Basic

namespace Daybook

/-! ### Records -/

structure ValidateRequest where
  file : String
  /-- A validation mode other than that of the settings. -/
  mode : Option ValidationMode := none
deriving DecidableEq, Repr

namespace ValidateRequest

def logs (request : ValidateRequest) (read : String → Except FileError ByteArray) :
    Except CommandError (List DailyLog) :=
  match read request.file with
  | .error cause => .error (.notRead request.file cause)
  | .ok bytes =>
    match String.fromUTF8? bytes with
    | none => .error (.notRead request.file .notText)
    | some text =>
      match (Json.read? text).bind logsOfJson? with
      | none => .error (.notRecords request.file)
      | some logs => .ok logs

def run (request : ValidateRequest) (settings : Settings) (currentYear : Int)
    (read : String → Except FileError ByteArray) : CommandResult :=
  match request.logs read with
  | .error failure => { failure := some failure }
  | .ok logs =>
    match Converter.ofConfig (settings.conversion.withMode request.mode) currentYear with
    | .error fault => { failure := some (.badTable fault) }
    | .ok converter =>
      let (findings, _) := converter.validateIn request.file logs .fresh
      { output := Report.render findings
        failure := if findings.hasErrors then some (.recordsFailed request.file) else none }

end ValidateRequest

/-! ### Rules -/

def showRules (settings : Settings) : CommandResult :=
  match RuleTable.ofConfig settings.conversion.rules with
  | .error fault => { failure := some (.badRules fault) }
  | .ok _ => { output := Json.pretty settings.conversion.rules.toJson ++ "\n" }

end Daybook
