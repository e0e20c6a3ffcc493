/-
  Daybook/Diagnostic/Span.lean
  ============================
  **Where a finding points.**  A span covers lines and columns of a file, both
  counted from 1 with their ends included; columns count characters.
-/

namespace Daybook

structure Span where
  file : String
  lineStart : Nat
  lineEnd : Nat
  columnStart : Nat
  columnEnd : Nat
  /-- The text of the line, where the span quotes it. -/
  rawText : Option String := none
deriving DecidableEq, Repr

namespace Span

/-- The span of one whole line; an empty line still has a column. -/
def ofLine (file : String) (line : Nat) (raw : String) : Span :=
  { file, lineStart := line, lineEnd := line, columnStart := 1,
    columnEnd := max raw.toList.length 1, rawText := some raw }

/-- The span of several lines, without their text; it never ends before it starts. -/
def ofLines (file : String) (first last : Nat) : Span :=
  { file, lineStart := first, lineEnd := max last first, columnStart := 1, columnEnd := 1 }

def withColumns (s : Span) (first last : Nat) : Span :=
  { s with columnStart := first, columnEnd := last }

/-- The line, or the first and the last line with a hyphen between. -/
def lineLabel (s : Span) : String :=
  if s.lineStart < s.lineEnd then s!"{s.lineStart}-{s.lineEnd}" else toString s.lineStart

/-- Spans are ordered by file, lines, columns and last by the quoted text, none first. -/
instance : Ord Span where
  compare :=
    compareLex (compareOn file) <|
    compareLex (compareOn lineStart) <|
    compareLex (compareOn lineEnd) <|
    compareLex (compareOn columnStart) <|
    compareLex (compareOn columnEnd) (compareOn rawText)

end Span

end Daybook
