/-
  Daybook/Proofs/Conversion/Revalidation.lean
  ===========================================
  **Validating converted records again.**  The months of an outcome are written as
  JSON, read back and validated, each for itself.  The records that are read are
  those that were written; together the months raise what the conversion said about
  the consistency of its records; and the conversion failed validation just when
  the validate command fails for one of the months (`revalidate_months`).
-/
import Daybook.Command.Validate
import Daybook.Proofs.Conversion.Readable
import Daybook.Proofs.Conversion.Verdict
import Daybook.Proofs.Record.MonthGroups

namespace Daybook

open Daybook.Text

/-! ### The validate command -/

theorem fromUTF8?_toUTF8 (s : String) : String.fromUTF8? s.toUTF8 = some s := by
  have hvalid : s.toUTF8.IsValidUTF8 := s.isValidUTF8
  rw [String.fromUTF8?, dif_pos hvalid]
  rfl

theorem ValidateRequest.run_of_records {request : ValidateRequest} {settings : Settings}
    {year : Int} {read : String → Except FileError ByteArray} {text : String}
    {logs : List DailyLog} {c : Converter} (hread : read request.file = .ok text.toUTF8)
    (hlogs : (Json.read? text).bind logsOfJson? = some logs)
    (hconfig : Converter.ofConfig (settings.conversion.withMode request.mode) year = .ok c) :
    let findings := (Diagnostics.fresh.emitAll (c.validate request.file logs)).1
    request.run settings year read =
      { output := Report.render findings
        failure := if findings.hasErrors then some (.recordsFailed request.file) else none } := by
  have hrequest : request.logs read = .ok logs := by
    simp only [ValidateRequest.logs, hread, fromUTF8?_toUTF8, hlogs]
  simp only [run, hrequest, hconfig, Converter.validateIn_eq]

namespace Converter

variable {c : Converter} {name : String} {bytes : ByteArray} {run : Diagnostics} {outcome : Outcome}

/-! ### Months by themselves -/

theorem map_inFile_validate (c : Converter) (name file : String) (logs : List DailyLog) :
    (c.validate file logs).map (Diagnostic.inFile name) = c.validate name logs :=
  (c.validator name).map_inFile_check file c.scope logs

/-- Where months are checked for themselves, they raise the same one by one as all together. -/
theorem flatMap_validate_groupByMonth (hscope : c.scope = .month) (name : String)
    (logs : List DailyLog) :
    ((groupByMonth logs).entries.flatMap fun month => c.validate name month.2) =
      c.validate name logs := by
  have hmonth : ∀ month ∈ (groupByMonth logs).entries,
      c.validate name month.2 = (c.validator name).checkBatch month.2 := by
    intro month hmem
    simp [validate, Validator.check, hscope, values_groupByMonth_of_mem hmem]
  rw [List.flatMap_congr hmonth]
  simp only [validate, Validator.check, hscope, Mapping.values, List.flatMap_map]

/-! ### Records that fail -/

theorem hasErrors_iff (c : Converter) (name : String) (logs : List DailyLog) :
    (Diagnostics.fresh.emitAll (c.validate name logs)).1.hasErrors = true ↔
      c.validate name logs ≠ [] := by
  rw [Diagnostics.hasErrors, Diagnostics.entries_emitAll, Diagnostics.entries_fresh,
    List.nil_append, List.any_eq_true]
  constructor
  · rintro ⟨d, hd, -⟩
    exact List.ne_nil_of_mem hd
  · intro hne
    obtain ⟨d, hd⟩ := List.exists_mem_of_ne_nil _ hne
    exact ⟨d, hd, (Validator.raises_of_mem_check hd).isError⟩

/-! ### Months of an outcome -/

theorem mem_of_mem_months {log : DailyLog} {month : String × List DailyLog}
    (hmonth : month ∈ outcome.months.entries) (hlog : log ∈ month.2) : log ∈ outcome.logs := by
  apply (perm_groupByMonth outcome.logs).mem_iff.mp
  exact List.mem_flatten.mpr ⟨month.2, List.mem_map.mpr ⟨month, hmonth, rfl⟩, hlog⟩

/-- **Validating the months of an outcome again agrees with the conversion.**  Where months are
    checked for themselves, the records of each month are read back from their text, in either
    layout; the months together raise what the outcome says about consistency, but for the name of
    the file; and the outcome has failed validation just when the validate command, run with the
    same settings on the files of the months, fails validation for one of them.  The numbers of
    lines are read as counts up to 2⁶⁴ − 1, and so many bytes a log has at most. -/
theorem revalidate_months {settings : Settings} {year : Int} {write : Json → String}
    {file : String → String} {read : String → Except FileError ByteArray}
    (hscope : settings.conversion.scope = .month)
    (hconfig : ofConfig settings.conversion year = .ok c)
    (hsize : bytes.size ≤ Json.largestCount)
    (hconvert : (c.convert name bytes run).2 = .ok outcome)
    (hwrite : write ∈ [Json.compact, Json.pretty])
    (hread : ∀ month ∈ outcome.months.entries,
      read (file month.1) = .ok (write (logsToJson month.2)).toUTF8) :
    (∀ month ∈ outcome.months.entries,
        (Json.read? (write (logsToJson month.2))).bind logsOfJson? = some month.2) ∧
      (outcome.months.entries.flatMap fun month =>
          (c.validate (file month.1) month.2).map (Diagnostic.inFile name)).Perm
        (outcome.diagnostics.filter Diagnostic.isLogical) ∧
      (outcome.validationFailed = true ↔
        ∃ month ∈ outcome.months.entries,
          (({ file := file month.1 } : ValidateRequest).run settings year read).failure =
            some (.recordsFailed (file month.1))) := by
  have hmonth : c.scope = .month := by
    obtain ⟨table, -, rfl⟩ := ofConfig_eq_ok_iff.mp hconfig
    exact hscope
  have hreadable := isReadable_of_convert hconvert hsize
  have hdecoded : ∀ month ∈ outcome.months.entries,
      (Json.read? (write (logsToJson month.2))).bind logsOfJson? = some month.2 := by
    intro month hmem
    apply logsOfJson?_read? hwrite
    intro log hlog
    exact hreadable log (mem_of_mem_months hmem hlog)
  -- the name of the file is all that the months found for themselves differ in
  have hfindings : (outcome.months.entries.flatMap fun month =>
      (c.validate (file month.1) month.2).map (Diagnostic.inFile name)) =
        c.validate name outcome.logs := by
    simp only [map_inFile_validate]
    exact flatMap_validate_groupByMonth hmonth name outcome.logs
  have hfails : ∀ month ∈ outcome.months.entries,
      ((({ file := file month.1 } : ValidateRequest).run settings year read).failure =
          some (.recordsFailed (file month.1)) ↔ c.validate (file month.1) month.2 ≠ []) := by
    intro month hmem
    let request : ValidateRequest := { file := file month.1 }
    have hrun : request.run settings year read = _ :=
      ValidateRequest.run_of_records (hread month hmem) (hdecoded month hmem) hconfig
    rw [hrun, ← hasErrors_iff]
    simp [request]
  refine ⟨hdecoded, ?_, ?_⟩
  · rw [hfindings]
    exact perm_filter_isLogical hconvert
  · rw [validationFailed_iff hconvert, ← hfindings, ne_eq, List.flatMap_eq_nil_iff]
    constructor
    · intro hsome
      simp only [List.map_eq_nil_iff, not_forall] at hsome
      obtain ⟨month, hmem, hne⟩ := hsome
      exact ⟨month, hmem, (hfails month hmem).mpr hne⟩
    · rintro ⟨month, hmem, hfailed⟩ hnone
      have hempty := List.map_eq_nil_iff.mp (hnone month hmem)
      exact (hfails month hmem).mp hfailed hempty

/-- Two months, of which the second ends without sleep. -/
theorem revalidate_months_second_month :
    let settings : Settings := { reportPath := "diagnostics.txt" }
    let bytes :=
      "2025_01_31\n0700wake\n0900 x\n2025_02_01\n0800wake\n0900 y\n1000 z\n".toUTF8
    ∃ c outcome, ofConfig settings.conversion 2025 = .ok c ∧
      (c.convert "log.txt" bytes .quiet).2 = .ok outcome ∧
      outcome.logs.map (fun log => log.date.monthKey) = ["2025-01", "2025-02"] ∧
      outcome.validationFailed = true ∧
      let read := fun key =>
        .ok (Json.pretty (logsToJson ((outcome.months.get? key).getD []))).toUTF8
      ∃ month ∈ outcome.months.entries,
        (({ file := month.1 } : ValidateRequest).run settings 2025 read).failure =
          some (.recordsFailed month.1) := by
  intro settings bytes
  have hscope : settings.conversion.scope = .month := rfl
  have hsize : bytes.size ≤ Json.largestCount := by decide +kernel
  obtain ⟨c, outcome, hconfig, hconvert, hmonths, hsleep⟩ : ∃ c outcome,
      ofConfig settings.conversion 2025 = .ok c ∧
        (c.convert "log.txt" bytes .quiet).2 = .ok outcome ∧
        outcome.logs.map (fun log => log.date.monthKey) = ["2025-01", "2025-02"] ∧
        ((c.validator "log.txt").dayFindings .missingSleepNight outcome.logs).length = 1 := by
    refine ⟨{
      table := {}, validation := {}, scope := .month, dayStart := .midnight,
      fallbackYear := 2025, linksSleep := true }, _, ?config,
      convert_of_complete ?complete .quiet, ?months, ?sleep⟩
    case config =>
      have htable : RuleTable.ofConfig {} = .ok {} := by decide +kernel
      unfold ofConfig
      rw [htable]
      rfl
    case complete => decide +kernel
    case months => decide +kernel
    case sleep => decide +kernel
  clear_value settings bytes
  have hfailed : outcome.validationFailed = true := by
    rw [validationFailed_iff hconvert]
    intro hnone
    have hperm := (c.validator "log.txt").perm_withCode_check
      (by decide : Code.missingSleepNight ≠ .missingDate)
      (by decide : Code.missingSleepNight ≠ .incorrectDayCount) c.scope outcome.logs
    have hlength := hperm.length_eq
    rw [show (c.validator "log.txt").check c.scope outcome.logs = [] from hnone, hsleep] at hlength
    cases hlength
  let read : String → Except FileError ByteArray := fun key =>
    .ok (Json.pretty (logsToJson ((outcome.months.get? key).getD []))).toUTF8
  have hread : ∀ month ∈ outcome.months.entries,
      read (id month.1) = .ok (Json.pretty (logsToJson month.2)).toUTF8 := by
    intro month hmem
    simp only [read, id_eq, Mapping.get?_eq_some_of_mem hmem, Option.getD_some]
  have hwrite : Json.pretty ∈ [Json.compact, Json.pretty] :=
    List.mem_cons_of_mem _ List.mem_cons_self
  have hagain := (revalidate_months hscope hconfig hsize hconvert hwrite hread).2.2
  exact ⟨c, outcome, hconfig, hconvert, hmonths, hfailed, hagain.mp hfailed⟩

end Converter

end Daybook
