/-
  Daybook/Command/Script.lean
  ===========================
  **What a command does outside itself.**  A script is a command that has still to
  be performed: it reads files, prints, adds to a file and in the end fails or not.
  What it does next may depend on what was read and on what came of adding to a
  file.  Performing it leaves the list of its acts.
-/
import Daybook.Command.Result

namespace Daybook

inductive Act where
  /-- Reads files, in whatever order. -/
  | read (paths : List String)
  | print (text : String)
  /-- Tries once to add a text to a file, making the folders above it. -/
  | append (path text : String)
deriving DecidableEq, Repr

namespace Act

def printed? : Act → Option String
  | print text => some text
  | read _ | append _ _ => none

def appended? : Act → Option (String × String)
  | append path text => some (path, text)
  | read _ | print _ => none

end Act

/-- A command that has still to be performed. -/
inductive Script where
  | finish (failure : Option CommandError)
  | read (paths : List String) (next : (String → Except FileError ByteArray) → Script)
  | print (text : String) (next : Script)
  | append (path text : String) (next : Report.Delivery → Script)

/-- What scripts are performed on. -/
structure Outside where
  /-- What is read of a file. -/
  read : String → Except FileError ByteArray
  /-- What comes of adding a text to a file. -/
  deliver : String → String → Report.Delivery

namespace Script

/-- The acts of a script, in order, and why it fails if it does.  It gets to see the files that it
    reads and no others. -/
def perform (outside : Outside) : Script → List Act × Option CommandError
  | finish failure => ([], failure)
  | read paths next =>
    let contents := fun path => if path ∈ paths then outside.read path else .error .notFound
    let (acts, failure) := (next contents).perform outside
    (.read paths :: acts, failure)
  | print text next =>
    let (acts, failure) := next.perform outside
    (.print text :: acts, failure)
  | append path text next =>
    let (acts, failure) := (next (outside.deliver path text)).perform outside
    (.append path text :: acts, failure)

/-- What a script does that reads these files and can add to any file. -/
def result (script : Script) (read : String → Except FileError ByteArray) : CommandResult :=
  let (acts, failure) := script.perform { read, deliver := fun _ _ => .complete }
  { output := String.join (acts.filterMap Act.printed?)
    report := (acts.filterMap Act.appended?).getLast?
    failure }

end Script

end Daybook
