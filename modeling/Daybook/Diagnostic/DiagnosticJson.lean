/-
  Daybook/Diagnostic/DiagnosticJson.lean
  ======================================
  **Diagnostics as JSON.**  A span and the text it quotes are left out where
  there is none.
-/
import Daybook.Diagnostic.Finding
import Daybook.Json.Decode

namespace Daybook

/-! ### Spans -/

def Span.toJson (s : Span) : Json :=
  .object <|
    [("file_path", .string s.file),
     ("line_start", .natural s.lineStart),
     ("line_end", .natural s.lineEnd),
     ("column_start", .natural s.columnStart),
     ("column_end", .natural s.columnEnd)] ++
    Json.fieldIfSome "raw_text" .string s.rawText

def Span.ofJson? (value : Json) : Option Span := do
  let fields ← value.asFields?
    ["file_path", "line_start", "line_end", "column_start", "column_end", "raw_text"]
  let file ← Json.required fields "file_path" Json.asText?
  let lineStart ← Json.required fields "line_start" Json.asCount?
  let lineEnd ← Json.required fields "line_end" Json.asCount?
  let columnStart ← Json.required fields "column_start" Json.asCount?
  let columnEnd ← Json.required fields "column_end" Json.asCount?
  let rawText ← Json.defaulted fields "raw_text" (Json.asOptional? Json.asText?) none
  return { file, lineStart, lineEnd, columnStart, columnEnd, rawText }

/-! ### Diagnostics -/

def Diagnostic.toJson (d : Diagnostic) : Json :=
  .object <|
    [("severity", .string d.severity.name),
     ("code", .string d.code.name),
     ("message", .string d.message),
     ("line_number", .natural d.line)] ++
    Json.fieldIfSome "span" Span.toJson d.span

def Severity.ofJson? : Json → Option Severity := Json.asNameOf? Severity.ofName?

def Code.ofJson? : Json → Option Code := Json.asTextOf? Code.ofName?

def Diagnostic.ofJson? (value : Json) : Option Diagnostic := do
  let fields ← value.asFields? ["severity", "code", "message", "line_number", "span"]
  let severity ← Json.required fields "severity" Severity.ofJson?
  let code ← Json.required fields "code" Code.ofJson?
  let message ← Json.required fields "message" Json.asText?
  let line ← Json.required fields "line_number" Json.asCount?
  let span ← Json.defaulted fields "span" (Json.asOptional? Span.ofJson?) none
  return { severity, code, message, line, span }

end Daybook
