/-
  Daybook/Command/Result.lean
  ===========================
  **What a command does.**  It prints a text, may add a text to a report file, and
  may fail.  A failure is told as a chain of messages, from the command's own
  words down to the first cause; the causes of some failures have no fixed words
  and are left out.
-/
import Daybook.Conversion.Converter

namespace Daybook

inductive CommandError where
  | noSettings
  /-- The rules to be shown are no rules. -/
  | badRules (fault : RuleError)
  /-- The rules to convert or validate with are no rules. -/
  | badTable (fault : RuleError)
  | notConverted (path : String) (cause : ReadError)
  | logsFailed (failed total : Nat)
  | notRead (path : String) (cause : FileError)
  /-- The records are not what a conversion writes. -/
  | notRecords (path : String)
  | recordsFailed (path : String)
deriving DecidableEq, Repr

namespace CommandError

/-- How a faulty table is told by what would have used it. -/
def tableMessage (fault : RuleError) : String := "invalid rule table: " ++ fault.message

/-- The messages of a failure, the outermost first. -/
def chain : CommandError → List String
  | noSettings => ["failed to load configuration"]
  | badRules fault => ["invalid rule configuration", fault.message]
  | badTable fault => ["invalid rule configuration", tableMessage fault, fault.message]
  | notConverted path cause =>
    ["failed to convert " ++ path, cause.message, cause.cause.message]
  | logsFailed failed total => [s!"{failed} of {total} files failed validation"]
  | notRead path cause => ["failed to read " ++ path, cause.message]
  | notRecords path => [path ++ " is not a JSON array of daily logs"]
  | recordsFailed path => ["validation failed for " ++ path]

/-- Whether a failure has causes that its chain leaves out. -/
def leavesOutCauses : CommandError → Bool
  | noSettings | notRecords _ => true
  | _ => false

/-! ### Failures as text -/

/-- A cause, its first line after `opening` and the others indented as far. -/
def causeText (opening message : String) : String :=
  let indent := String.ofList (List.replicate opening.length ' ')
  opening ++ ("\n" ++ indent).intercalate ((Text.splitAt '\n' message.toList).map String.ofList)

/-- The causes of a failure, numbered if there are several. -/
def causesText : List String → String
  | [] => ""
  | [cause] => "\n\nCaused by:\n" ++ causeText "    " cause
  | causes =>
    "\n\nCaused by:\n" ++
      "\n".intercalate (causes.mapIdx fun n cause => causeText s!"    {n}: " cause)

def text (e : CommandError) : String :=
  match e.chain with
  | [] => ""
  | headline :: causes =>
    "Error: " ++ headline ++ if e.leavesOutCauses then "" else causesText causes ++ "\n"

end CommandError

structure CommandResult where
  output : String := ""
  /-- A file, and the text to be added to it. -/
  report : Option (String × String) := none
  failure : Option CommandError := none
deriving DecidableEq, Repr

end Daybook
