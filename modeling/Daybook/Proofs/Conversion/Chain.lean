/-
  Daybook/Proofs/Conversion/Chain.lean
  ====================================
  **Converted days have no gaps.**  Whatever a log says, the activities of each
  record follow on one another from the start that its block gives, the sleep that
  closes a day included, so no conversion ever reports a time discontinuity
  (`convert_hasNoGaps`).
-/
import Daybook.Proofs.Conversion.Converter

namespace Daybook.Converter

open Daybook.Text

variable {c : Converter} {name : String} {bytes : ByteArray} {run : Diagnostics} {outcome : Outcome}

theorem isChainFrom_record {lines : List String} {o : Opening}
    (ho : o ∈ (c.scanSetup name).openings lines) :
    IsChainFrom (firstStart c.table c.dayStart o.place.block)
      (c.record name lines o).activities := by
  apply isChainFrom_closedBy
  rw [(Opening.course_read ho).1]
  exact isChainFrom_recordFrom _ _ _

theorem isTimed_of_mem_record {lines : List String} {o : Opening}
    (ho : o ∈ (c.scanSetup name).openings lines) {a : Activity}
    (ha : a ∈ (c.record name lines o).activities) : a.IsTimed := by
  refine isTimed_of_mem_closedBy (fun a ha => ?_) ha
  rw [(Opening.course_read ho).1] at ha
  exact isTimed_of_mem_recordFrom ha

/-- Whether a record has no gaps: it is that of an opening, its activities follow on one another
    from the start that the block gives, and each is as long as the time between its ends. -/
structure HasNoGaps (c : Converter) (o : Opening) (log : DailyLog) : Prop where
  line : log.line = o.place.line.number
  date : log.date = o.date
  chain : IsChainFrom (firstStart c.table c.dayStart o.place.block) log.activities
  timed : ∀ a ∈ log.activities,
    a.seconds = intervalSeconds a.start a.finish ∧ 0 ≤ a.seconds ∧ a.seconds ≤ 86399

theorem hasNoGaps_record {lines : List String} {o : Opening}
    (ho : o ∈ (c.scanSetup name).openings lines) : c.HasNoGaps o (c.record name lines o) where
  line := o.line_read _
  date := o.date_read _
  chain := isChainFrom_record ho
  timed := by
    intro a ha
    have htimed : a.IsTimed := isTimed_of_mem_record ho ha
    exact ⟨htimed, htimed.bounds⟩

/-- **Converted days have no gaps.**  Each opening of a log gives a record, in order, whose first
    activity starts where the block of the day says and each other one where the one before it ends.
    No time discontinuity is reported, in any mode. -/
theorem convert_hasNoGaps (h : (c.convert name bytes run).2 = .ok outcome) :
    List.Forall₂ c.HasNoGaps ((c.scanSetup name).openings (readLines bytes).lines) outcome.logs ∧
      ∀ d ∈ outcome.diagnostics, d.code ≠ .timeDiscontinuity := by
  have hlogs := logs_eq_map_record h
  constructor
  · rw [hlogs, List.forall₂_map_right_iff]
    exact List.forall₂_same.mpr fun o ho => hasNoGaps_record ho
  · -- a chain has no joint to report, so no record raises a time discontinuity
    have hnone : (c.validator name).dayFindings .timeDiscontinuity outcome.logs = [] := by
      apply Validator.dayFindings_eq_nil
      intro log hlog
      rw [hlogs] at hlog
      rcases List.mem_map.mp hlog with ⟨o, ho, rfl⟩
      rw [Validator.withCode_timeDiscontinuity_checkDay]
      exact (isChainFrom_record ho).checkJoints_eq_nil _
    have hfound := perm_withCode_convert h .timeDiscontinuity rfl (by decide) (by decide)
    rw [hnone] at hfound
    intro d hd hcode
    have hmem : d ∈ withCode .timeDiscontinuity outcome.diagnostics :=
      List.mem_filter.mpr ⟨hd, by simp [hcode]⟩
    rw [hfound.eq_nil] at hmem
    cases hmem

/-- Two days, the first of which is closed with the sleep up to the second. -/
theorem convert_hasNoGaps_linked :
    let c : Converter := {
      table := {}, validation := {}, scope := .month, dayStart := .midnight,
      fallbackYear := 2025, linksSleep := true }
    let bytes := "2025_01_15\n0700wake\n2300 x\n01_16\n0630wake\n0800y\n".toUTF8
    ∃ outcome, (c.convert "log.txt" bytes .quiet).2 = .ok outcome ∧
      outcome.logs.map (fun log => log.activities.map Activity.seconds) =
        [[57600, 27000], [5400]] ∧
      List.Forall₂ c.HasNoGaps ((c.scanSetup "log.txt").openings (readLines bytes).lines)
        outcome.logs ∧
      ∀ d ∈ outcome.diagnostics, d.code ≠ .timeDiscontinuity := by
  refine ⟨_, convert_of_complete ?complete .quiet, ?seconds,
    convert_hasNoGaps (convert_of_complete ?complete .quiet)⟩
  case complete => decide +kernel
  case seconds => decide +kernel

end Daybook.Converter
