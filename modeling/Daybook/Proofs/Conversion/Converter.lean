/-
  Daybook/Proofs/Conversion/Converter.lean
  ========================================
  **What a conversion gives.**  A log whose lines are all text is converted, and
  no other (`convert_eq_ok_iff`): the records are those of the scanned days, and
  the findings those of the scan and of validation, sorted.  A scan never doubts
  the consistency of records, so what the outcome says about a day in itself is
  what validation says about its record (`perm_withCode_convert`).
-/
import Daybook.Proofs.Conversion.Run
import Daybook.Proofs.Conversion.Sleep
import Daybook.Proofs.Scan.Findings
import Daybook.Proofs.Validation.Batch

namespace Daybook.Converter

open Daybook.Text

variable {c : Converter} {name : String} {bytes : ByteArray} {run : Diagnostics} {outcome : Outcome}

/-- What a log that is text converts to. -/
def converted (c : Converter) (name : String) (bytes : ByteArray) : Outcome :=
  let found := (c.scanSetup name).scan (readLines bytes).lines
  let logs := c.records found.1
  ⟨name, logs, Diagnostic.sort (found.2 ++ c.validate name logs)⟩

/-- **When a log is converted, and what comes out.** -/
theorem convert_eq_ok_iff :
    (c.convert name bytes run).2 = .ok outcome ↔
      (readLines bytes).complete = true ∧ outcome = c.converted name bytes := by
  rw [convert_eq]
  unfold read converted
  by_cases hcomplete : (readLines bytes).complete = true
  · simp [hcomplete, eq_comm]
  · simp [hcomplete]

theorem convert_of_complete (h : (readLines bytes).complete = true) (run : Diagnostics) :
    (c.convert name bytes run).2 = .ok (c.converted name bytes) :=
  convert_eq_ok_iff.mpr ⟨h, rfl⟩

theorem logs_of_convert (h : (c.convert name bytes run).2 = .ok outcome) :
    outcome.logs = c.records ((c.scanSetup name).scan (readLines bytes).lines).1 := by
  obtain ⟨-, heq⟩ := convert_eq_ok_iff.mp h
  rw [heq, converted]

/-- The record that an opening of a log makes. -/
def record (c : Converter) (name : String) (lines : List String) (o : Opening) : DailyLog :=
  let setup := c.scanSetup name
  let log := (o.read setup).1.log
  log.closedBy (c.nightSleep? (setup.scan lines).1 log)

theorem logs_eq_map_record (h : (c.convert name bytes run).2 = .ok outcome) :
    let lines := (readLines bytes).lines
    outcome.logs = ((c.scanSetup name).openings lines).map (c.record name lines) := by
  intro lines
  have hrecord : (fun day : ScannedDay =>
      day.log.closedBy (c.nightSleep? ((c.scanSetup name).scan lines).1 day.log)) ∘
        (fun o => (o.read (c.scanSetup name)).1) = c.record name lines := rfl
  rw [logs_of_convert h, records_eq, ← hrecord, ← List.map_map, ← days_scan]

/-- The findings of a code that only validation raises, and that is about single days. -/
theorem perm_withCode_convert (h : (c.convert name bytes run).2 = .ok outcome) (code : Code)
    (hlogical : code.family = .logicalConsistency) (hdate : code ≠ .missingDate)
    (hcount : code ≠ .incorrectDayCount) :
    (withCode code outcome.diagnostics).Perm
      ((c.validator name).dayFindings code outcome.logs) := by
  obtain ⟨-, heq⟩ := convert_eq_ok_iff.mp h
  have hscan : withCode code ((c.scanSetup name).scan (readLines bytes).lines).2 = [] := by
    apply withCode_eq_nil
    intro d hd
    rintro rfl
    have hd := isLogical_of_mem_scan hd
    simp [Diagnostic.isLogical, hlogical] at hd
  rw [heq, converted]
  refine (perm_withCode_sort code _).trans ?_
  rw [withCode_append, hscan, List.nil_append]
  exact (c.validator name).perm_withCode_check hdate hcount c.scope _

end Daybook.Converter
