/-
  Daybook/CommandLine/Words.lean
  ==============================
  **The words of a command line.**  Words are read one after the other.  A word is
  an option, a cluster of letters, the value of the option before it, or a file.
  What is read waits until the next option or file comes before it is settled, so
  a fault in it is noticed only then; help and version are answered at once, but
  after what waits has been settled.
-/
import Daybook.CommandLine.Option
import Daybook.Text.Parts
import Daybook.Validation.Config

namespace Daybook.CommandLine

open Daybook.Text

/-- Why no command is run. -/
inductive Stop where
  | usage
  | help (topic : Topic)
  | version
deriving DecidableEq, Repr

/-- What waits to be settled. -/
inductive Waiting where
  | nothing
  /-- An option that has no value yet. -/
  | option (key : Key)
  /-- An option with its value. -/
  | value (key : Key) (value : String)
  | files (files : List String)
deriving DecidableEq, Repr

/-- What has been read of the words of a command. -/
structure Words where
  flags : List Key := []
  values : List (Key × String) := []
  files : List String := []
  waiting : Waiting := .nothing
  /-- Whether `--` has come, after which every word is a file. -/
  onlyFiles : Bool := false
deriving DecidableEq, Repr

namespace Words

/-! ### Settling -/

/-- Whether an option accepts a value: no path is empty, and a mode has a name. -/
def accepts (key : Key) (value : String) : Bool :=
  match key with
  | .mode => (ValidationMode.ofName? value).isSome
  | _ => !value.isEmpty

def settle (w : Words) : Except Stop Words :=
  match w.waiting with
  | .nothing => .ok w
  | .option _ => .error .usage
  | .value key value =>
    if (w.values.lookup key).isSome || !accepts key value then .error .usage
    else .ok { w with values := w.values ++ [(key, value)], waiting := .nothing }
  | .files files =>
    if files.any String.isEmpty then .error .usage
    else .ok { w with files := w.files ++ files, waiting := .nothing }

/-! ### Options -/

def readFlag (topic : Topic) (key : Key) (w : Words) : Except Stop Words := do
  let w ← w.settle
  match key with
  | .help => throw (.help topic)
  | .version => throw .version
  | key => if key ∈ w.flags then throw .usage else return { w with flags := key :: w.flags }

/-- Reads an option that takes a value, which is in the same word or follows. -/
def readOption (key : Key) (value : Option String) (w : Words) : Except Stop Words := do
  let w ← w.settle
  match value with
  | some value => settle { w with waiting := .value key value }
  | none => return { w with waiting := .option key }

/-- Reads `--name` or `--name=value`, without the `--`. -/
def readLong (topic : Topic) (cs : List Char) (w : Words) : Except Stop Words :=
  let (name, value) :=
    match cutAt? ['='] cs with
    | some (name, value) => (name, some (String.ofList value))
    | none => (cs, none)
  match topic.keys.find? fun key => key.long == String.ofList name with
  | none => .error .usage
  | some key =>
    if key.takesValue then w.readOption key value
    else if value.isSome then .error .usage
    else w.readFlag topic key

/-- Reads a cluster of letters, without the `-`.  The letter of an option that takes a value ends
    the cluster; the rest is the value, with or without `=`. -/
def readCluster (topic : Topic) : List Char → Words → Except Stop Words
  | [], w => .ok w
  | c :: rest, w =>
    match topic.keys.find? fun key => key.letter? == some c with
    | none => .error .usage
    | some key =>
      if key.takesValue then
        match rest with
        | [] => w.readOption key none
        | '=' :: value => w.readOption key (some (String.ofList value))
        | value => w.readOption key (some (String.ofList value))
      else
        match w.readFlag topic key with
        | .error stop => .error stop
        | .ok w => readCluster topic rest w

/-! ### Files -/

def hasFiles (w : Words) : Bool :=
  !w.files.isEmpty || match w.waiting with
    | .files _ => true
    | _ => false

def readFile (topic : Topic) (word : String) (w : Words) : Except Stop Words :=
  match topic.operands with
  | .none => .error .usage
  | .one =>
    if w.hasFiles then .error .usage
    else w.settle.map fun w => { w with waiting := .files [word] }
  | .several =>
    match w.waiting with
    | .files files => .ok { w with waiting := .files (files ++ [word]) }
    | _ => w.settle.map fun w => { w with waiting := .files [word] }

/-! ### Any word -/

def read (topic : Topic) (word : String) (w : Words) : Except Stop Words :=
  if w.onlyFiles then w.readFile topic word
  else
    match word.toList with
    | ['-', '-'] => .ok { w with onlyFiles := true }
    | '-' :: '-' :: rest => w.readLong topic rest
    | '-' :: c :: rest => w.readCluster topic (c :: rest)
    | _ =>
      match w.waiting with
      | .option key => .ok { w with waiting := .value key word }
      | _ => w.readFile topic word

/-- Whether the next word could name a command. -/
def awaitsCommand (w : Words) : Bool :=
  !w.onlyFiles && match w.waiting with
    | .option _ => false
    | _ => true

end Words

end Daybook.CommandLine
