/-
  Daybook/Main.lean
  =================
  **The executable.**  Looks at the environment, reads the files that the run may
  read, runs `Program.run`, prints what it says and adds to the report file.
  Nothing is decided here.
-/
import Daybook.Program
import Std.Time.Format

namespace Daybook.Main

/-! ### Looking around -/

def fileError : IO.Error → FileError
  | .noFileOrDirectory _ _ _ => .notFound
  | .inappropriateType _ 20 _ => .notFolder
  | .inappropriateType _ 21 _ => .isFolder
  | .invalidArgument _ 36 _ => .nameTooLong
  | other => .other (toString other)

def readFile (path : String) : IO (Except FileError ByteArray) := do
  try
    return .ok (← IO.FS.readBinFile path)
  catch problem =>
    return .error (fileError problem)

def variableOf? (text : String) : Option (String × String) :=
  (Text.cutAt? ['='] text.toList).map fun (name, value) =>
    (String.ofList name, String.ofList value)

/-- Reads a text; no text where there is none. -/
def readText (path : String) : IO String := do
  match ← readFile path with
  | .error _ => return ""
  | .ok bytes => return (String.fromUTF8? bytes).getD ""

/-- The environment of this process, as the system shows it. -/
def readEnvironment : IO Environment := do
  let text ← readText "/proc/self/environ"
  let status ← readText "/proc/self/status"
  let accounts ← readText "/etc/passwd"
  return {
    entries := (Text.splitAt '\x00' text.toList).filterMap fun entry =>
      variableOf? (String.ofList entry)
    accountHome := (Account.number? status).bind (Account.home? accounts) }

def currentYear : IO Int := do
  let today ← Std.Time.PlainDate.now
  return today.year

/-! ### The report file -/

/-- Adds a text to a file, making the folders above it; a report that cannot be written is
    dropped. -/
def addReport (path text : String) : IO Unit := do
  try
    match Path.parent? path with
    | some folder => if !folder.isEmpty then IO.FS.createDirAll folder
    | none => pure ()
  catch _ => pure ()
  try
    let handle ← IO.FS.Handle.mk path .append
    handle.putStr text
    handle.flush
  catch _ => pure ()

end Daybook.Main

def main (words : List String) : IO UInt32 := do
  let surroundings : Daybook.Surroundings := {
    words
    environment := ← Daybook.Main.readEnvironment
    workingFolder := toString (← IO.currentDir)
    currentYear := ← Daybook.Main.currentYear }
  let contents ← (Daybook.Program.sources surroundings).mapM fun path => do
    return (path, ← Daybook.Main.readFile path)
  let read := fun path => (contents.lookup path).getD (.error .notFound)
  let result := Daybook.Program.run surroundings read
  IO.print result.output
  match result.report with
  | some (path, text) => Daybook.Main.addReport path text
  | none => pure ()
  IO.eprint result.errors
  return result.exitCode.toUInt32
