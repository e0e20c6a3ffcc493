/-
  Daybook/Diagnostic/Finding.lean
  ===============================
  **Diagnostics.**  A diagnostic is one finding about the input or the records
  made from it.  Diagnostics are ordered by line, code, message, severity and
  span; the order looks at every part, so it never takes two different
  diagnostics for equal, and sorting loses nothing.
-/
import Daybook.Diagnostic.Code
import Daybook.Diagnostic.Span

namespace Daybook

/-- A finding about the input or the records made from it. -/
structure Diagnostic where
  severity : Severity
  code : Code
  message : String
  /-- The line it is filed under; 0 when it belongs to no line. -/
  line : Nat
  span : Option Span := none
deriving DecidableEq, Repr

namespace Diagnostic

/-- A diagnostic at the severity of its code. -/
def ofCode (code : Code) (line : Nat) (message : String) : Diagnostic :=
  { severity := code.defaultSeverity, code, message, line }

def withSpan (d : Diagnostic) (span : Span) : Diagnostic := { d with span := some span }

def isError (d : Diagnostic) : Bool := d.severity == .error

/-- Whether it is about the consistency of the records. -/
def isLogical (d : Diagnostic) : Bool := d.code.family == .logicalConsistency

instance : Ord Diagnostic where
  compare :=
    compareLex (compareOn line) <|
    compareLex (compareOn code) <|
    compareLex (compareOn message) <|
    compareLex (compareOn severity) (compareOn span)

def sort (ds : List Diagnostic) : List Diagnostic :=
  ds.mergeSort fun a b => (compare a b).isLE

end Diagnostic

end Daybook
