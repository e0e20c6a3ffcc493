/-
  Daybook/CommandLine/Arguments.lean
  ==================================
  **What a command line asks for.**  Options of the whole program may stand before
  and after the name of the command, where the later value counts.  The words
  after the name are judged before those in front of it.
-/
import Daybook.Command.Convert
import Daybook.Command.Validate
import Daybook.CommandLine.Words

namespace Daybook

inductive Request where
  | convert (request : ConvertRequest)
  | validate (request : ValidateRequest)
  | rules
deriving DecidableEq, Repr

/-- What a command line asks for. -/
structure Arguments where
  verbose : Bool := false
  config : Option String := none
  request : Option Request := none
deriving DecidableEq, Repr

namespace Arguments

open CommandLine

/-! ### The words of a command -/

/-- Reads the words after the name of a command. -/
def readWords (topic : Topic) : List String → Words → Except Stop Words
  | [], w => w.settle
  | word :: rest, w =>
    match w.read topic word with
    | .error stop => .error stop
    | .ok w => readWords topic rest w

def mode? (w : Words) : Option ValidationMode :=
  (w.values.lookup .mode).bind ValidationMode.ofName?

def requestOf (topic : Topic) (w : Words) : Except Stop Request :=
  match topic, w.files with
  | .convert, file :: more =>
    .ok <| .convert {
      files := file :: more
      json := w.flags.contains .json
      report := w.values.lookup .report
      mode := mode? w }
  | .validate, [file] => .ok (.validate { file, mode := mode? w })
  | .rules, [] => .ok .rules
  | _, _ => .error .usage

/-! ### Help -/

/-- What the help command is about: the program, or one command. -/
def helpTopic : List String → Except Stop Topic
  | [] => .ok .program
  | [word] =>
    match Topic.ofName? word with
    | some topic => .ok topic
    | none => .error .usage
  | _ => .error .usage

def answerHelp (words : List String) : Stop :=
  match helpTopic words with
  | .ok topic => .help topic
  | .error stop => stop

/-! ### Whole command lines -/

/-- What is asked for by the words before and after the name of a command. -/
def combine (before after : Words) (request : Option Request) : Arguments :=
  { verbose := after.flags.contains .verbose || before.flags.contains .verbose
    config := (after.values.lookup .config).or (before.values.lookup .config)
    request }

/-- Reads the words from the name of a command on, after the words `before`. -/
def readCommand (before : Words) (topic : Topic) (words : List String) : Except Stop Arguments := do
  let after ← readWords topic words {}
  let asked ← requestOf topic after
  let before ← before.settle
  return combine before after (some asked)

/-- Reads a command line after the words `before`. -/
def readAfter (before : Words) : List String → Except Stop Arguments
  | [] => do
    let before ← before.settle
    return combine before {} none
  | word :: rest =>
    match (if before.awaitsCommand then Topic.ofName? word else none) with
    | some .help => .error (answerHelp rest)
    | some topic => readCommand before topic rest
    | none =>
      match before.read .program word with
      | .error stop => .error stop
      | .ok before => readAfter before rest

def read (words : List String) : Except Stop Arguments := readAfter {} words

end Arguments

end Daybook
