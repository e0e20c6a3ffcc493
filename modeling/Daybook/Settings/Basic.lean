/-
  Daybook/Settings/Basic.lean
  ===========================
  **Settings.**  What the program is run with: the settings of conversions and the
  file that reports are added to.  Where they are looked for depends on the home
  folder of the user.  For each account the system keeps a line in a table: fields
  with `:` between them, of which the third is the number of the account and the
  sixth its home folder; what it tells of a running program names the number behind
  `Uid:`.
-/
import Daybook.Conversion.Config
import Daybook.Files.Path

namespace Daybook

structure Settings where
  conversion : ConversionConfig := {}
  reportPath : String
deriving DecidableEq, Repr

namespace Settings

def toJson (s : Settings) : Json :=
  .object [("convert", s.conversion.toJson), ("report_path", .string s.reportPath)]

/-- Reads settings; what is left out is as in `usual`. -/
def ofJson? (usual : Settings) (value : Json) : Option Settings := do
  let fields ← value.asFields? ["convert", "report_path"]
  let conversion ← Json.defaulted fields "convert" ConversionConfig.ofJson? usual.conversion
  let reportPath ← Json.defaulted fields "report_path" Json.asText? usual.reportPath
  return { conversion, reportPath }

end Settings

/-! ### Places of a user -/

/-- What a program is told about its user. -/
structure Environment where
  /-- The environment variables, names with texts. -/
  entries : List (String × String) := []
  /-- The home folder that the system keeps for the account of the user. -/
  accountHome : Option String := none
deriving Repr

/-- The home folder: the one that `HOME` names, else that of the account. -/
def Environment.home? (environment : Environment) : Option String :=
  match environment.entries.lookup "HOME" with
  | some home => if home.isEmpty then environment.accountHome else some home
  | none => environment.accountHome

def belowHome? (environment : Environment) (below : String) : Option String :=
  environment.home?.map fun home => Path.join home below

/-- A folder of the user: the one that the variable `name` gives as an absolute path, else one
    below the home folder. -/
def userFolder? (environment : Environment) (name below : String) : Option String :=
  match environment.entries.lookup name with
  | some folder => if Path.isAbsolute folder then some folder else belowHome? environment below
  | none => belowHome? environment below

def userSettingsPath? (environment : Environment) : Option String :=
  (userFolder? environment "XDG_CONFIG_HOME" ".config").map fun folder =>
    Path.join folder "tl/config.toml"

/-- The report file where no setting names one. -/
def usualReportPath (environment : Environment) : String :=
  match userFolder? environment "XDG_DATA_HOME" ".local/share" with
  | some folder => Path.join folder "tl/diagnostics.txt"
  | none => "./diagnostics.txt"

/-! ### Accounts -/

namespace Account

open Daybook.Text

/-- The lines of a table, each cut into fields. -/
def rows (separator : Char) (table : String) : List (List String) :=
  (splitAt '\n' table.toList).map fun line => (splitAt separator line).map String.ofList

/-- The number of the account that runs a program. -/
def number? (status : String) : Option String :=
  (rows '\t' status).findSome? fun
    | "Uid:" :: number :: _ => some number
    | _ => none

/-- The home folder of an account, if the table gives it one. -/
def home? (table number : String) : Option String :=
  (rows ':' table).findSome? fun
    | _ :: _ :: n :: _ :: _ :: home :: _ =>
      if n = number ∧ home ≠ "" then some home else none
    | _ => none

end Account

end Daybook
