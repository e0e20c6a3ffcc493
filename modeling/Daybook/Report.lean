/-
  Daybook/Report.lean
  ===================
  **The report.**  Findings as plain text, one section for each code that occurs:

      [source_invalid_line_format] Invalid line format (1)
      log.txt:4: Line 4: invalid line format: unrecognized line
          "hello there"

  Delivering a report is an attempt: when it fails, the failure becomes one more
  finding and nothing else changes, so that the next report tells of it.  A report
  is written to something that is open already, or at the end of a file, which may
  not open.
-/
import Daybook.Diagnostics
import Daybook.Files.Tree

namespace Daybook.Report

/-! ### Text -/

/-- One finding: its place, its message, and the quoted line where there is one. -/
def entry (d : Diagnostic) : String :=
  match d.span with
  | none => s!"Line {d.line}: {d.message}"
  | some span =>
    let label := span.lineLabel
    let place := s!"{span.file}:{label}: Line {label}: {d.message}"
    match span.rawText with
    | none => place
    | some raw => place ++ "\n    \"" ++ raw ++ "\""

/-- A section: the heading of a code with the number of its findings, then each finding. -/
def codeSection (code : Code) (findings : List Diagnostic) : String :=
  s!"[{code.name}] {code.title} ({findings.length})\n" ++
    String.join (findings.map fun d => entry d ++ "\n")

/-- The report: the sections in code order with an empty line between them. -/
def render (c : Diagnostics) : String :=
  match c.grouped with
  | [] => "No diagnostics.\n"
  | groups => "\n".intercalate (groups.map fun group => codeSection group.1 group.2)

/-! ### Delivery -/

inductive Delivery where
  | complete
  | notOpened (cause : String)
  /-- Writing stopped after this many bytes. -/
  | brokeOff (written : Nat) (cause : String)
  /-- The whole text was written, but could not be brought to an end. -/
  | notFlushed (cause : String)
deriving DecidableEq, Repr

namespace Delivery

def failure? : Delivery → Option String
  | .complete => none
  | .notOpened cause => some cause
  | .brokeOff _ cause => some cause
  | .notFlushed cause => some cause

/-- The bytes that the destination gains of a text. -/
def bytes (d : Delivery) (text : String) : ByteArray :=
  match d with
  | .complete => text.toUTF8
  | .notOpened _ => .empty
  | .brokeOff written _ => text.toUTF8.extract 0 written
  | .notFlushed _ => text.toUTF8

/-- What the destination gains, as a text; none if writing stopped inside a character. -/
def gained (d : Delivery) (text : String) : String := (String.fromUTF8? (d.bytes text)).getD ""

end Delivery

def undelivered (destination cause : String) : Diagnostic :=
  .ofCode .reportWriteFailed 0
    s!"could not write diagnostics report to {destination}: {cause}"

/-- What is left of the findings after an attempt to deliver their report: the findings, one more
    if the attempt failed, and whether it succeeded. -/
def settle (c : Diagnostics) (destination : String) (delivery : Delivery) : Diagnostics × Bool :=
  match delivery.failure? with
  | none => (c, true)
  | some cause => ((c.emit (undelivered destination cause)).1, false)

/-! ### Keeping the report -/

/-- What a failure calls a destination that was open. -/
def openDestination : String := "report sink"

/-- Writes the report to something open. -/
def persist (c : Diagnostics) (delivery : Delivery) : Diagnostics × Bool :=
  settle c openDestination delivery

/-- The place of a file opened to be written to at its end, unless the system or the tree
    refuses. -/
def openAt (t : FileTree) (path : String) : Delivery → Except String (List String)
  | .notOpened cause => .error cause
  | .complete | .brokeOff _ _ | .notFlushed _ => (t.placeToAppend path).mapError FileError.message

/-- Adds the report at the end of a file, which is made if it is not there.  A failure calls the
    file by its path only if it did not open. -/
def persistAt (c : Diagnostics) (t : FileTree) (path : String) (delivery : Delivery) :
    (Diagnostics × Bool) × FileTree :=
  match openAt t path delivery with
  | .error cause => (settle c path (.notOpened cause), t)
  | .ok place => (persist c delivery, t.appendAt place (delivery.bytes (render c)))

end Daybook.Report
