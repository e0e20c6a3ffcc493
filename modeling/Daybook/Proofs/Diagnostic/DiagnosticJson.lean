/-
  Daybook/Proofs/Diagnostic/DiagnosticJson.lean
  =============================================
  **Reading a finding undoes writing it.**  A severity and a code are read back from
  their names, a span and its quotation from where they stand or from their absence.
  Lines and columns must be counts that reading accepts.  With the records this
  makes everything that is written about a log readable again (`ofJson?_read?_write`).
-/
import Daybook.Diagnostic.DiagnosticJson
import Daybook.Proofs.Record.RecordJson

namespace Daybook

/-! ### Spans -/

/-- Whether the lines and columns of a span are counts. -/
structure Span.IsReadable (s : Span) : Prop where
  lineStart : s.lineStart ≤ Json.largestCount
  lineEnd : s.lineEnd ≤ Json.largestCount
  columnStart : s.columnStart ≤ Json.largestCount
  columnEnd : s.columnEnd ≤ Json.largestCount

theorem Span.ofJson?_toJson {s : Span} (h : s.IsReadable) : Span.ofJson? s.toJson = some s := by
  have hlineStart := asCount?_natural h.lineStart
  have hlineEnd := asCount?_natural h.lineEnd
  have hcolumnStart := asCount?_natural h.columnStart
  have hcolumnEnd := asCount?_natural h.columnEnd
  obtain ⟨file, lineStart, lineEnd, columnStart, columnEnd, rawText⟩ := s
  cases rawText <;>
    simp [ofJson?, toJson, Json.fieldIfSome, Json.asFields?, Json.required, Json.defaulted,
      Json.asText?, hlineStart, hlineEnd, hcolumnStart, hcolumnEnd]

theorem Span.isPlain_toJson (s : Span) : s.toJson.isPlain = true := by
  obtain ⟨file, lineStart, lineEnd, columnStart, columnEnd, rawText⟩ := s
  cases rawText <;> rfl

/-! ### Diagnostics -/

/-- Whether all numbers of a finding are counts. -/
structure Diagnostic.IsReadable (d : Diagnostic) : Prop where
  line : d.line ≤ Json.largestCount
  span : ∀ s ∈ d.span, s.IsReadable

theorem asOptional?_span {s : Span} (h : s.IsReadable) :
    Json.asOptional? Span.ofJson? s.toJson = some (some s) :=
  asOptional?_of_some nofun (s.ofJson?_toJson h)

theorem Severity.ofJson?_name (s : Severity) : Severity.ofJson? (.string s.name) = some s :=
  s.ofName?_name

theorem Code.ofJson?_name (c : Code) : Code.ofJson? (.string c.name) = some c :=
  c.ofName?_name

/-- **A finding is read back.** -/
theorem Diagnostic.ofJson?_toJson {d : Diagnostic} (h : d.IsReadable) :
    Diagnostic.ofJson? d.toJson = some d := by
  have hline := asCount?_natural h.line
  have hspan := fun s hs => asOptional?_span (h.span s hs)
  obtain ⟨severity, code, message, line, span⟩ := d
  have hseverity := severity.ofJson?_name
  have hcode := code.ofJson?_name
  cases span with
  | none =>
    simp [ofJson?, toJson, Json.fieldIfSome, Json.asFields?, Json.required, Json.defaulted,
      Json.asText?, hseverity, hcode, hline]
  | some s =>
    simp [ofJson?, toJson, Json.fieldIfSome, Json.asFields?, Json.required, Json.defaulted,
      Json.asText?, hseverity, hcode, hline, hspan s rfl]

theorem Diagnostic.isPlain_toJson (d : Diagnostic) : d.toJson.isPlain = true := by
  obtain ⟨severity, code, message, line, span⟩ := d
  cases span with
  | none => rfl
  | some s =>
    have hspan := s.isPlain_toJson
    simp [toJson, Json.fieldIfSome, Json.isPlain, Json.arePlainFields, Json.natural, hspan]

/-! ### Texts -/

/-- **Records and findings are read back from their text**, in either layout. -/
theorem ofJson?_read?_write {write : Json → String} (hwrite : write ∈ [Json.compact, Json.pretty]) :
    (∀ log : DailyLog, log.IsReadable →
        (Json.read? (write log.toJson)).bind DailyLog.ofJson? = some log) ∧
      ∀ d : Diagnostic, d.IsReadable →
        (Json.read? (write d.toJson)).bind Diagnostic.ofJson? = some d := by
  constructor
  · intro log hlog
    rw [Json.read?_write hwrite log.isPlain_toJson, Option.bind_some]
    exact DailyLog.ofJson?_toJson hlog
  · intro d hd
    rw [Json.read?_write hwrite d.isPlain_toJson, Option.bind_some]
    exact Diagnostic.ofJson?_toJson hd

/-- The first date there is, a fraction within a leap second, and numbers at their limits. -/
theorem ofJson?_read?_write_limits :
    let date : Date := { year := -262143, month := 1, day := 1 }
    let leap : TimeOfDay := { hour := 23, minute := 59, second := 60, nanosecond := 1 }
    let activity : Activity :=
      { start := leap, finish := .midnight, description := "", path := "\t",
        seconds := -9223372036854775808, line := 18446744073709551615 }
    let log : DailyLog :=
      { date, flags := { sleep := some false }, getup := some leap,
        remark := some "\"a\\b\"\n", activities := [activity] }
    let d : Diagnostic := Diagnostic.withSpan (.ofCode .timeDiscontinuity 18446744073709551615 "")
      (.ofLines "log.txt" 18446744073709551615 1)
    log.IsReadable ∧ d.IsReadable ∧
      date.text = "-262143-01-01" ∧ leap.text = "23:59:60.000000001" ∧
      (Json.read? (Json.compact log.toJson)).bind DailyLog.ofJson? = some log ∧
      (Json.read? (Json.compact d.toJson)).bind Diagnostic.ofJson? = some d := by
  intro date leap activity log d
  have hlog : log.IsReadable := by
    refine ⟨?_, by decide⟩
    intro a ha
    obtain rfl := List.mem_singleton.mp ha
    exact ⟨by decide, by decide, by decide⟩
  have hd : d.IsReadable := by
    refine ⟨by decide, ?_⟩
    rintro s ⟨⟩
    exact ⟨by decide, by decide, by decide, by decide⟩
  have hwrite : Json.compact ∈ [Json.compact, Json.pretty] := List.mem_cons_self
  obtain ⟨hlogs, hfindings⟩ := ofJson?_read?_write hwrite
  exact ⟨hlog, hd, by decide +kernel, by decide +kernel, hlogs log hlog, hfindings d hd⟩

end Daybook
