/-
  Daybook/Proofs/Conversion/Spans.lean
  ====================================
  **Where the findings of a conversion point.**  A report shows the lines of a
  finding's span, while findings are filed under a line.  Almost every span is that
  one line.  The span of a missing date runs from the date line of the day before it
  to the date line of the day after it, and the finding is filed under the latter:
  so the span covers the two lines when the days stand in the log in the order of
  their dates (`convert_spans`).  When they stand the other way round, the span stops
  at its first line, and the report names a line that the finding is not filed under
  (`exists_span_beside_line`).
-/
import Daybook.Proofs.Conversion.Chain
import Daybook.Proofs.Scan.Dates
import Daybook.Proofs.Scan.Spans
import Daybook.Proofs.Validation.Finding
import Daybook.Proofs.Validation.Gaps

namespace Daybook

/-- Whether a line is one of those that a span covers. -/
def Span.Covers (s : Span) (line : Nat) : Prop := s.lineStart ≤ line ∧ line ≤ s.lineEnd

instance (s : Span) (line : Nat) : Decidable (s.Covers line) :=
  inferInstanceAs (Decidable (_ ∧ _))

/-- Lines from one on cover their last one when it does not stand before the first. -/
theorem Span.covers_ofLines_iff {file : String} {first last : Nat} :
    (Span.ofLines file first last).Covers last ↔ first ≤ last := by
  have hlast : last ≤ max last first := Nat.le_max_left _ _
  exact and_iff_left hlast

theorem Span.covers_ofLines_first (file : String) (first last : Nat) :
    (Span.ofLines file first last).Covers first :=
  ⟨Nat.le_refl first, Nat.le_max_right last first⟩

/-! ### What validation finds -/

namespace Validator

/-- What a finding in a batch of logs is about: one line, a date that is missing between two logs,
    or two activities of a log that do not join. -/
inductive FoundIn (v : Validator) (logs : List DailyLog) (d : Diagnostic) : Prop where
  | line (raises : v.RaisesAtLine d)
  | missing (before after : DailyLog) (date : Date) (before_mem : before ∈ logs)
      (after_mem : after ∈ logs) (before_lt : before.date < date) (lt_after : date < after.date)
      (found : d = v.missingDate before after date)
  | joint (log : DailyLog) (mem : log ∈ logs) (found : d ∈ v.checkJoints log)

variable {v : Validator} {logs : List DailyLog} {d : Diagnostic}

theorem FoundIn.mono {logs' : List DailyLog} (h : v.FoundIn logs d)
    (hlogs : ∀ log ∈ logs, log ∈ logs') : v.FoundIn logs' d := by
  cases h with
  | line raises => exact .line raises
  | missing before after date before_mem after_mem before_lt lt_after found =>
    exact .missing before after date (hlogs _ before_mem) (hlogs _ after_mem) before_lt lt_after
      found
  | joint log mem found => exact .joint log (hlogs _ mem) found

theorem foundIn_of_mem_checkContinuity (hd : d ∈ v.checkContinuity logs) : v.FoundIn logs d := by
  rw [checkContinuity_eq, flatMap_checkPair] at hd
  obtain ⟨gap, hgap, rfl⟩ := List.mem_map.mp hd
  obtain ⟨hpair, hbefore, hafter⟩ := mem_gapsOf.mp hgap
  obtain ⟨front, back, hlogs⟩ := exists_of_mem_neighbours hpair
  exact .missing gap.before gap.after gap.date (by simp [hlogs]) (by simp [hlogs]) hbefore hafter
    rfl

theorem foundIn_of_mem_checkBatch (hd : d ∈ v.checkBatch logs) : v.FoundIn logs d := by
  have hsorted : ∀ log ∈ sortByDate logs, log ∈ logs :=
    fun log hlog => (perm_sortByDate logs).mem_iff.mp hlog
  refine FoundIn.mono ?_ hsorted
  unfold checkBatch at hd
  dsimp only at hd
  split at hd
  · cases hd
  · exact foundIn_of_mem_checkContinuity hd
  · rcases List.mem_append.mp hd with hd | hday
    · rcases List.mem_append.mp hd with hdate | hmonth
      · exact foundIn_of_mem_checkContinuity hdate
      · split at hmonth
        · exact .line (raisesAtLine_of_mem_checkMonths hmonth)
        · cases hmonth
    · rcases List.mem_flatMap.mp hday with ⟨log, hlog, hd⟩
      rcases raisesAtLine_of_mem_checkDay hd with hline | hjoint
      · exact .line hline
      · exact .joint log hlog hjoint

/-- **What a finding of validation is about**, whatever the scope. -/
theorem foundIn_of_mem_check {scope : ValidationScope} (hd : d ∈ v.check scope logs) :
    v.FoundIn logs d := by
  cases scope with
  | range => exact foundIn_of_mem_checkBatch hd
  | month =>
    rcases List.mem_flatMap.mp hd with ⟨batch, hbatch, hd⟩
    refine (foundIn_of_mem_checkBatch hd).mono ?_
    intro log hlog
    exact (perm_groupByMonth logs).mem_iff.mp (List.mem_flatten.mpr ⟨batch, hbatch, hlog⟩)

end Validator

namespace Converter

open Daybook.Text

variable {c : Converter} {name : String} {bytes : ByteArray} {run : Diagnostics} {outcome : Outcome}

/-- Whether a finding points at the line that it is filed under, and at no other; a missing date
    never does. -/
def PointsAtLine (name : String) (d : Diagnostic) : Prop :=
  d.code ≠ .missingDate ∧ ∃ span, d.span = some span ∧ span.file = name ∧
    span.lineStart = d.line ∧ span.lineEnd = d.line

/-- Whether a finding is about a date that is missing between two of some records: filed under the
    later one, with a span from the line of the earlier one on.  The earlier one is always covered,
    and the later one when it does not stand before it. -/
def PointsBetween (c : Converter) (name : String) (logs : List DailyLog) (d : Diagnostic) : Prop :=
  ∃ before ∈ logs, ∃ after ∈ logs, ∃ date span,
    before.date < date ∧ date < after.date ∧ d = (c.validator name).missingDate before after date ∧
      d.line = after.line ∧ d.span = some span ∧ span.file = name ∧ span.lineStart = before.line ∧
      span.Covers before.line ∧ (span.Covers after.line ↔ before.line ≤ after.line)

theorem pointsAtLine_of_mem_scan {lines : List String} {d : Diagnostic}
    (hd : d ∈ ((c.scanSetup name).scan lines).2) : PointsAtLine name d := by
  constructor
  · rintro hcode
    have hfamily := isLogical_of_mem_scan hd
    rw [Diagnostic.isLogical, hcode] at hfamily
    cases hfamily
  · obtain ⟨line, text, hraises⟩ := raisesAt_of_mem_scan hd
    have hline := hraises.line_eq
    obtain ⟨span, hspan, hfile, hstart, hend, -⟩ := hraises.span
    exact ⟨span, hspan, hfile, hstart.trans hline.symm, hend.trans hline.symm⟩

theorem pointsAtLine_of_raisesAtLine {d : Diagnostic}
    (h : (c.validator name).RaisesAtLine d) : PointsAtLine name d := by
  obtain ⟨code, line, message, -, hcode, rfl⟩ := h
  exact ⟨hcode, _, rfl, rfl, rfl, Nat.max_self line⟩

theorem pointsBetween_missingDate {logs : List DailyLog} {before after : DailyLog} {date : Date}
    (hbefore : before ∈ logs) (hafter : after ∈ logs) (hlt : before.date < date)
    (hgt : date < after.date) :
    c.PointsBetween name logs ((c.validator name).missingDate before after date) :=
  ⟨before, hbefore, after, hafter, date, .ofLines name before.line after.line, hlt, hgt, rfl, rfl,
    rfl, rfl, rfl, Span.covers_ofLines_first _ _ _, Span.covers_ofLines_iff⟩

/-- The records of a log stand in the order of its lines. -/
theorem pairwise_line_logs (h : (c.convert name bytes run).2 = .ok outcome) :
    outcome.logs.Pairwise fun a b => a.line < b.line := by
  rw [logs_eq_map_record h, List.pairwise_map]
  refine (pairwise_openings _ _).imp_of_mem ?_
  intro a b ha hb hab
  rw [(hasNoGaps_record ha).line, (hasNoGaps_record hb).line]
  exact hab.1

/-- Of records whose dates and lines both rise, the earlier one stands first. -/
theorem line_le_of_date_lt {logs : List DailyLog}
    (hdates : logs.Pairwise fun a b => a.date < b.date)
    (hlines : logs.Pairwise fun a b => a.line < b.line) {before after : DailyLog}
    (hbefore : before ∈ logs) (hafter : after ∈ logs) (hlt : before.date < after.date) :
    before.line ≤ after.line := by
  obtain ⟨front, back, rfl⟩ := List.append_of_mem hbefore
  obtain ⟨-, hback, hfront⟩ := List.pairwise_append.mp hdates
  obtain ⟨-, hback', -⟩ := List.pairwise_append.mp hlines
  rcases List.mem_append.mp hafter with hmem | hmem
  · exact absurd hlt (lt_asymm (hfront after hmem before List.mem_cons_self))
  · rcases List.mem_cons.mp hmem with rfl | hmem
    · exact Nat.le_refl _
    · exact Nat.le_of_lt ((List.pairwise_cons.mp hback').1 after hmem)

/-- **Where the findings of a conversion point.**  Each points at the one line that it is filed
    under, or is about a date that is missing between two records; then it is filed under the date
    line of the later one, and its span covers the date line of the earlier one, and that of the
    later one just when it does not stand before the earlier one.  So in a log whose days stand in
    the order of their dates every span covers the line that its finding is filed under. -/
theorem convert_spans (h : (c.convert name bytes run).2 = .ok outcome) :
    (∀ d ∈ outcome.diagnostics, PointsAtLine name d ∨ c.PointsBetween name outcome.logs d) ∧
      ((outcome.logs.Pairwise fun a b => a.date < b.date) →
        ∀ d ∈ outcome.diagnostics, ∃ span, d.span = some span ∧ span.Covers d.line) := by
  have hpoints : ∀ d ∈ outcome.diagnostics,
      PointsAtLine name d ∨ c.PointsBetween name outcome.logs d := by
    intro d hd
    obtain ⟨-, rfl⟩ := convert_eq_ok_iff.mp h
    rcases List.mem_append.mp ((Diagnostic.perm_sort _).mem_iff.mp hd) with hscan | hcheck
    · exact .inl (pointsAtLine_of_mem_scan hscan)
    · cases Validator.foundIn_of_mem_check hcheck with
      | line raises => exact .inl (pointsAtLine_of_raisesAtLine raises)
      | missing before after date before_mem after_mem before_lt lt_after found =>
        rw [found]
        exact .inr (pointsBetween_missingDate before_mem after_mem before_lt lt_after)
      | joint log mem found =>
        -- the activities of a record join, so no check of a joint finds anything
        have hmem : log ∈ (c.converted name bytes).logs := mem
        rw [logs_eq_map_record h] at hmem
        obtain ⟨o, ho, rfl⟩ := List.mem_map.mp hmem
        rw [(isChainFrom_record ho).checkJoints_eq_nil] at found
        cases found
  refine ⟨hpoints, ?_⟩
  intro hdates d hd
  rcases hpoints d hd with ⟨-, span, hspan, -, hstart, hend⟩ |
    ⟨before, hbefore, after, hafter, date, span, hlt, hgt, -, hline, hspan, -, -, -, hcovers⟩
  · exact ⟨span, hspan, hstart.le, hend.ge⟩
  · have hle := line_le_of_date_lt hdates (pairwise_line_logs h) hbefore hafter (lt_trans hlt hgt)
    rw [hline]
    exact ⟨span, hspan, hcovers.mpr hle⟩

theorem mem_diagnostics_of_mem_validate {d : Diagnostic}
    (hd : d ∈ c.validate name (c.converted name bytes).logs) :
    d ∈ (c.converted name bytes).diagnostics :=
  (Diagnostic.perm_sort _).mem_iff.mpr (List.mem_append_right _ hd)

/-- Days in order, with a date missing between the last two of them. -/
theorem convert_spans_in_order :
    let c : Converter := {
      table := {}, validation := { mode := .continuity }, scope := .range, dayStart := .midnight,
      fallbackYear := 2025, linksSleep := true }
    let bytes := "2025_01_01\n0700wake\n2561 x\n01_02\n2300 y\n01_04\n".toUTF8
    ∃ outcome, (c.convert "log.txt" bytes .quiet).2 = .ok outcome ∧
      (outcome.logs.Pairwise fun a b => a.date < b.date) ∧
      (∃ d ∈ outcome.diagnostics, d.code = .missingDate ∧ d.line = 6 ∧
        d.span = some (.ofLines "log.txt" 4 6)) ∧
      (∀ d ∈ outcome.diagnostics,
        PointsAtLine "log.txt" d ∨ c.PointsBetween "log.txt" outcome.logs d) ∧
      ∀ d ∈ outcome.diagnostics, ∃ span, d.span = some span ∧ span.Covers d.line := by
  intro c bytes
  have hcomplete : (readLines bytes).complete = true := by decide +kernel
  have hok : (c.convert "log.txt" bytes .quiet).2 = .ok (c.converted "log.txt" bytes) :=
    convert_of_complete hcomplete .quiet
  obtain ⟨hpoints, hcovers⟩ := convert_spans hok
  let logs := (c.converted "log.txt" bytes).logs
  have hordered : logs.Pairwise fun a b => a.date < b.date := by decide +kernel
  have hsorted : sortByDate logs = logs :=
    sortByDate_of_pairwise (hordered.imp fun hlt => le_of_lt hlt)
  have hfound : ∃ d ∈ (c.validator "log.txt").checkContinuity logs, d.code = .missingDate ∧
      d.line = 6 ∧ d.span = some (.ofLines "log.txt" 4 6) := by decide +kernel
  rw [← hsorted] at hfound
  obtain ⟨d, hd, hpoint⟩ := hfound
  exact ⟨_, hok, hordered, ⟨d, mem_diagnostics_of_mem_validate hd, hpoint⟩, hpoints,
    hcovers hordered⟩

/-- **A span need not cover the line of its finding.**  Of two days that stand in the log the other
    way round, the later one is on line 1, where the date missing between them is filed; the span is
    that of line 2, and the report names no other. -/
theorem exists_span_beside_line :
    let c : Converter := {
      table := {}, validation := { mode := .continuity }, scope := .range, dayStart := .midnight,
      fallbackYear := 2025, linksSleep := true }
    let bytes := "2025_01_03\n2025_01_01\n".toUTF8
    ∃ outcome, (c.convert "log.txt" bytes .quiet).2 = .ok outcome ∧
      outcome.logs.map (fun log => (log.line, log.date.text)) =
        [(1, "2025-01-03"), (2, "2025-01-01")] ∧
      ∃ d ∈ outcome.diagnostics, ∃ span ∈ d.span, d.code = .missingDate ∧
        d.message = "no daily log for 2025-01-02 (between 2025-01-01 and 2025-01-03)" ∧
        d.line = 1 ∧ span.lineLabel = "2" ∧ ¬span.Covers d.line := by
  intro c bytes
  have hcomplete : (readLines bytes).complete = true := by decide +kernel
  have hok : (c.convert "log.txt" bytes .quiet).2 = .ok (c.converted "log.txt" bytes) :=
    convert_of_complete hcomplete .quiet
  let logs := (c.converted "log.txt" bytes).logs
  have hsorted : sortByDate logs = logs.reverse := by
    rw [sortByDate_congr (List.reverse_perm logs).symm (by decide +kernel)]
    exact sortByDate_of_pairwise (by decide +kernel)
  have hfound : ∃ d ∈ (c.validator "log.txt").checkContinuity logs.reverse, ∃ span ∈ d.span,
      d.code = .missingDate ∧
        d.message = "no daily log for 2025-01-02 (between 2025-01-01 and 2025-01-03)" ∧
        d.line = 1 ∧ span.lineLabel = "2" ∧ ¬span.Covers d.line := by decide +kernel
  rw [← hsorted] at hfound
  obtain ⟨d, hd, hspan⟩ := hfound
  refine ⟨_, hok, ?days, d, mem_diagnostics_of_mem_validate hd, hspan⟩
  case days => decide +kernel

end Converter

end Daybook
