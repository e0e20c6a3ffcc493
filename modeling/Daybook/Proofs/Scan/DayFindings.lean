/-
  Daybook/Proofs/Scan/DayFindings.lean
  ====================================
  **What the lines of a day raise.**  A line inside a day raises findings of a few
  codes only, and closing a day raises missing headers.  The findings of
  unrecognized activities are in step with the activities recorded
  (`unrecognized_readAll`).
-/
import Daybook.Proofs.Diagnostic.Finding
import Daybook.Proofs.Scan.DayLines

namespace Daybook

/-! ### Codes -/

/-- The codes of findings about lines inside a day. -/
def dayLineCodes : List Code :=
  [.invalidLineFormat, .remarkAfterEvent, .duplicateHeader, .headerOutOfOrder,
   .unrecognizedActivity]

/-- The codes of findings about where a header line stands. -/
def headerFaultCodes : List Code := [.remarkAfterEvent, .duplicateHeader, .headerOutOfOrder]

namespace Block

theorem code_of_headerFault? {b : Block} {field : HeaderField} {standing : HeaderWrite}
    {code : Code} {message : String} (h : b.headerFault? field standing = some (code, message)) :
    code ∈ headerFaultCodes := by
  simp only [headerFault?] at h
  split at h
  · cases h
    decide
  · split at h <;> cases h <;> decide

theorem code_of_mem_readHeader {b : Block} {setup : ScanSetup} {line : Nat} {text : String}
    {field : HeaderField} {value : String} {column : Nat} {d : Diagnostic}
    (hd : d ∈ (b.readHeader setup line text field value column).2) :
    d.code ∈ dayLineCodes ∧ d.code ≠ .unrecognizedActivity := by
  simp only [readHeader] at hd
  split at hd
  · obtain rfl := List.mem_singleton.mp hd
    simp [dayLineCodes]
  · split at hd
    next code message hfault =>
      obtain rfl := List.mem_singleton.mp hd
      have hcodes : ∀ code ∈ headerFaultCodes,
          code ∈ dayLineCodes ∧ code ≠ .unrecognizedActivity := by decide
      exact hcodes code (code_of_headerFault? hfault)
    next => cases hd

theorem code_of_mem_readActivity {b : Block} {setup : ScanSetup} {line : Nat} {text : String}
    {written : WrittenActivity} {d : Diagnostic}
    (hd : d ∈ (b.readActivity setup line text written).2) : d.code = .unrecognizedActivity := by
  simp only [readActivity] at hd
  split at hd
  · cases hd
  · dsimp only at hd
    split at hd
    · cases hd
    · obtain rfl := List.mem_singleton.mp hd
      rfl

theorem code_of_mem_readLine {b : Block} {setup : ScanSetup} {line : Nat} {text : String}
    {kind : LineKind} {d : Diagnostic} (hd : d ∈ (b.readLine setup line text kind).2) :
    d.code ∈ dayLineCodes := by
  cases kind with
  | blank => cases hd
  | date year month day => cases hd
  | header field value column => exact (code_of_mem_readHeader hd).1
  | activity written =>
    rw [code_of_mem_readActivity hd]
    decide
  | invalid fault columnStart columnEnd =>
    obtain rfl := List.mem_singleton.mp hd
    simp only [ScanSetup.finding_code]
    decide

theorem code_of_mem_readAll {b : Block} {setup : ScanSetup} {lines : List LogLine}
    {d : Diagnostic} (hd : d ∈ (b.readAll setup lines).2) : d.code ∈ dayLineCodes := by
  induction lines generalizing b with
  | nil => cases hd
  | cons l rest ih =>
    rcases List.mem_append.mp hd with hd | hd
    · exact code_of_mem_readLine hd
    · exact ih hd

theorem code_of_mem_close {b : Block} {table : RuleTable} {file : String} {d : Diagnostic}
    (hd : d ∈ (b.close table file).2) : d.code = .missingHeader := by
  rcases List.mem_map.mp hd with ⟨field, -, rfl⟩
  rfl

/-! ### Unrecognized activities -/

theorem unrecognized_readLine (b : Block) (setup : ScanSetup) (l : LogLine) :
    ∃ new, (b.readLine setup l.number l.text l.kind).1.activities = b.activities ++ new ∧
      linesWith .unrecognizedActivity (b.readLine setup l.number l.text l.kind).2 =
        (new.filter fun a => !setup.table.knows a).map Activity.line := by
  cases hl : l.activity? with
  | none =>
    refine ⟨[], ?_, ?_⟩
    · simpa using (readLine_of_not_activity b setup hl).1
    · apply linesWith_eq_nil
      intro d hd
      cases hkind : l.kind with
      | header field value column =>
        rw [hkind] at hd
        exact (code_of_mem_readHeader hd).2
      | activity written => simp [LogLine.activity?, hkind] at hl
      | invalid fault columnStart columnEnd =>
        rw [hkind] at hd
        obtain rfl := List.mem_singleton.mp hd
        simp
      | _ =>
        rw [hkind] at hd
        cases hd
  | some written =>
    simp only [LogLine.kind_of_activity? hl, readLine]
    by_cases hopens :
        (setup.table.isWake (Text.trimmed written.description) && b.awaitsWake) = true
    · rcases Bool.and_eq_true_iff.mp hopens with ⟨hwake, hb⟩
      rw [readActivity_of_opens b setup l.number l.text hwake hb]
      exact ⟨[], by simp, rfl⟩
    · have hstep :=
        readActivity_of_not_opens b setup l.number l.text written (by simpa using hopens)
      rw [hstep]
      refine ⟨[setup.table.record (b.nextStart setup.dayStart) ⟨l.number, written⟩], rfl, ?_⟩
      cases hknows :
          setup.table.knows (setup.table.record (b.nextStart setup.dayStart) ⟨l.number, written⟩)
      · simp [hknows, linesWith_singleton, unrecognized]
      · simp [hknows]

/-- **Unrecognized activities are reported where they are recorded**, each once and in order. -/
theorem unrecognized_readAll (b : Block) (setup : ScanSetup) (lines : List LogLine) :
    ∃ new, (b.readAll setup lines).1.activities = b.activities ++ new ∧
      linesWith .unrecognizedActivity (b.readAll setup lines).2 =
        (new.filter fun a => !setup.table.knows a).map Activity.line := by
  induction lines generalizing b with
  | nil => exact ⟨[], by simp [readAll], rfl⟩
  | cons l rest ih =>
    obtain ⟨new, hactivities, hfindings⟩ := unrecognized_readLine b setup l
    obtain ⟨others, hothers, hrest⟩ := ih (b.readLine setup l.number l.text l.kind).1
    refine ⟨new ++ others, ?_, ?_⟩
    · simp [readAll, hothers, hactivities]
    · simp [readAll, hfindings, hrest]

end Block

end Daybook
