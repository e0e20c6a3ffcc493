/-
  Daybook/Program.lean
  ====================
  **The program.**  From a command line, the environment and the files it can read
  to what it prints, the code it ends with, and a text that it adds to a report
  file.  The files it may read are known from the command line and the
  environment alone (`Program.sources`), and it changes nothing but the report
  file.
-/
import Daybook.Command.Validate
import Daybook.CommandLine.Arguments
import Daybook.CommandLine.HelpPage
import Daybook.Settings.Layers

namespace Daybook

open CommandLine

structure Surroundings where
  words : List String
  environment : Environment
  /-- The absolute path of the folder in which the program works. -/
  workingFolder : String
  currentYear : Int

structure ProgramResult where
  output : String := ""
  errors : String := ""
  exitCode : Nat := 0
  /-- A file, and the text to be added to it. -/
  report : Option (String × String) := none
deriving DecidableEq, Repr

namespace Program

/-- What a command did, as a run of the program. -/
def ofCommand (r : CommandResult) : ProgramResult :=
  match r.failure with
  | none => { output := r.output, report := r.report }
  | some failure =>
    { output := r.output, errors := failure.text, exitCode := 1, report := r.report }

/-- What is answered where no command is run.  How a command line is to be written is left to the
    help pages. -/
def ofStop : Stop → ProgramResult
  | .usage => { exitCode := 2 }
  | .help topic => { output := topic.page }
  | .version => { output := versionText }

def perform (request : Request) (settings : Settings) (currentYear : Int)
    (read : String → Except FileError ByteArray) : CommandResult :=
  match request with
  | .convert request => request.run settings currentYear read
  | .validate request => request.run settings currentYear read
  | .rules => showRules settings

def run (s : Surroundings) (read : String → Except FileError ByteArray) : ProgramResult :=
  match Arguments.read s.words with
  | .error stop => ofStop stop
  | .ok arguments =>
    match arguments.request with
    | none => { output := Topic.program.page ++ "\n" }
    | some request =>
      match Settings.load read s.environment s.workingFolder arguments.config with
      | .error _ => ofCommand { failure := some .noSettings }
      | .ok settings => ofCommand (perform request settings s.currentYear read)

def requested : Request → List String
  | .convert request => request.files
  | .validate request => [request.file]
  | .rules => []

def sources (s : Surroundings) : List String :=
  match Arguments.read s.words with
  | .error _ => []
  | .ok arguments =>
    match arguments.request with
    | none => []
    | some request =>
      (Settings.files s.environment s.workingFolder arguments.config).flatten ++ requested request

end Program

end Daybook
