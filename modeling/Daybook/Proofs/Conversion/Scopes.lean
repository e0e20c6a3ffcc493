/-
  Daybook/Proofs/Conversion/Scopes.lean
  =====================================
  **The scope decides about the dates between months, and about nothing else.**
  Validating all logs together finds what validating them by month finds, and once
  each date that is missing between two months that have logs (`validateIn_scopes`).
-/
import Daybook.Proofs.Conversion.Run
import Daybook.Proofs.Validation.Scopes

namespace Daybook.Converter

variable {logs logs' : List DailyLog}

theorem validateIn_snd (c : Converter) (scope : ValidationScope) (name : String)
    (logs : List DailyLog) (run : Diagnostics) :
    ({ c with scope }.validateIn name logs run).2 =
      ((c.validator name).check scope logs).length := by
  rw [validateIn_eq]
  rfl

theorem validateIn_congr (c : Converter) (name : String) (run : Diagnostics)
    (hperm : logs.Perm logs') (hdates : (logs.map DailyLog.date).Nodup) :
    c.validateIn name logs' run = c.validateIn name logs run := by
  have hvalidate : c.validate name logs' = c.validate name logs :=
    ((c.validator name).check_congr c.scope hperm hdates).symm
  rw [validateIn_eq, validateIn_eq, hvalidate]

/-- **What a range has over its months.**  Whatever the settings and the logs, in any order and with
    dates that occur more than once, the findings of a range are those of its months and, where
    missing dates are looked for, one more for each date that is missing between the last date of a
    month that has logs and the first date of the next such month; the counts differ by their
    number.  Where no date occurs twice, neither scope depends on the order of the logs. -/
theorem validateIn_scopes (c : Converter) (name : String) (logs : List DailyLog)
    (run : Diagnostics) :
    let range := { c with scope := .range }
    let month := { c with scope := .month }
    (∃ found foundByMonth gaps,
      (range.validateIn name logs run).1.entries = run.entries ++ found ∧
      (month.validateIn name logs run).1.entries = run.entries ++ foundByMonth ∧
      found.Perm (foundByMonth ++ gaps.map (c.validator name).gapFinding) ∧
      (range.validateIn name logs run).2 = (month.validateIn name logs run).2 + gaps.length ∧
      (c.validation.mode = .none → gaps = []) ∧
      (c.validation.mode ≠ .none →
        (gaps.map Gap.date).Nodup ∧ (∀ gap ∈ gaps, gap.BetweenMonths logs) ∧
        ∀ gap : Gap, gap.BetweenMonths logs → gap.date ∈ gaps.map Gap.date)) ∧
    ((logs.map DailyLog.date).Nodup → ∀ logs', logs.Perm logs' →
      range.validateIn name logs' run = range.validateIn name logs run ∧
      month.validateIn name logs' run = month.validateIn name logs run) := by
  intro range month
  have hperm := (c.validator name).perm_check_range logs
  refine ⟨⟨(c.validator name).check .range logs, (c.validator name).check .month logs,
    (c.validator name).gapsAcross logs, ?_, ?_, hperm, ?_, ?_, ?_⟩, ?_⟩
  · rw [validateIn_eq, Diagnostics.entries_emitAll]
    rfl
  · rw [validateIn_eq, Diagnostics.entries_emitAll]
    rfl
  · have hlength := hperm.length_eq
    rw [List.length_append, List.length_map] at hlength
    rw [validateIn_snd, validateIn_snd]
    exact hlength
  · intro hmode
    exact Validator.gapsAcross_of_none hmode logs
  · intro hmode
    rw [Validator.gapsAcross_of_ne_none hmode]
    refine ⟨?_, fun gap => betweenMonths_of_mem, ?_⟩
    · have hsorted := pairwise_gapsOf_neighboursAcross logs
      exact List.pairwise_map.mpr (hsorted.imp ne_of_lt)
    · intro gap hgap
      obtain ⟨found, hfound, hdate⟩ := exists_mem_of_betweenMonths hgap
      exact List.mem_map.mpr ⟨found, hfound, hdate⟩
  · intro hdates logs' hlogs
    exact ⟨range.validateIn_congr name run hlogs hdates,
      month.validateIn_congr name run hlogs hdates⟩

/-- Three days out of order: the 29th of January is missing within its month, and three dates are
    missing between January and February. -/
theorem validateIn_scopes_two_months :
    let c : Converter := {
      table := {}, validation := { mode := .continuity }, scope := .month, dayStart := .midnight,
      fallbackYear := 2025, linksSleep := true }
    let range := { c with scope := .range }
    let month := { c with scope := .month }
    let first : DailyLog := { date := { year := 2025, month := 1, day := 28 } }
    let second : DailyLog := { date := { year := 2025, month := 1, day := 30 } }
    let third : DailyLog := { date := { year := 2025, month := 2, day := 3 } }
    let logs := [third, first, second]
    (month.validateIn "log.txt" logs .fresh).2 = 1 ∧
      (range.validateIn "log.txt" logs .fresh).2 = 4 ∧
      (∃ gaps : List Gap, gaps.length = 3 ∧ (gaps.map Gap.date).Nodup ∧
        (∀ gap ∈ gaps, gap.BetweenMonths logs) ∧
        { year := 2025, month := 2, day := 1 } ∈ gaps.map Gap.date) ∧
      range.validateIn "log.txt" [first, second, third] .fresh =
        range.validateIn "log.txt" logs .fresh ∧
      month.validateIn "log.txt" [first, second, third] .fresh =
        month.validateIn "log.txt" logs .fresh := by
  intro c range month first second third logs
  have hdates : (logs.map DailyLog.date).Nodup := by decide
  have hperm : logs.Perm [first, second, third] := by decide
  obtain ⟨⟨found, foundByMonth, gaps, -, -, -, hcount, -, hgaps⟩, horder⟩ :=
    validateIn_scopes c "log.txt" logs .fresh
  obtain ⟨hnodup, hbetween, hall⟩ := hgaps (by decide)
  obtain ⟨hrange, hmonth⟩ := horder hdates _ hperm
  have hsorted : sortByDate logs = [first, second, third] := by
    rw [sortByDate_congr hperm hdates]
    exact sortByDate_of_pairwise (by decide)
  have hone : (month.validateIn "log.txt" logs .fresh).2 = 1 := by
    rw [validateIn_snd, Validator.check_month_eq, Validator.inMonths, hsorted]
    decide +kernel
  have hfour : (range.validateIn "log.txt" logs .fresh).2 = 4 := by
    rw [validateIn_snd, Validator.check_range_eq, hsorted]
    decide +kernel
  have hgap : Gap.BetweenMonths logs
      { before := second, after := third, date := { year := 2025, month := 2, day := 1 } } := by
    constructor <;> decide
  have hthree : 4 = 1 + gaps.length := by
    rw [← hone, ← hfour]
    exact hcount
  refine ⟨hone, hfour, ⟨gaps, ?_, hnodup, hbetween, hall _ hgap⟩, hrange, hmonth⟩
  omega

end Daybook.Converter
