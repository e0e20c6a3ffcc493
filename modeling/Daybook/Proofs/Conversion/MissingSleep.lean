/-
  Daybook/Proofs/Conversion/MissingSleep.lean
  ===========================================
  **Which days are reported without sleep.**  Scanning, linking and validation
  agree on the path of sleep, whatever the rules make of it.  In full mode a day
  is reported, once, when it has no activity, or ends with something that is not
  sleep and is not closed with sleep (`convert_missingSleep`).  A day that ends
  with a wake line is never reported.
-/
import Daybook.Proofs.Conversion.Converter

namespace Daybook

open Daybook.Text

/-! ### Days that open with a wake line -/

/-- Whether a log has the day after a date, opened with a wake line. -/
def wakesAfter (table : RuleTable) (openings : List Opening) (date : Date) : Bool :=
  openings.any fun o =>
    date.succ? = some o.date && (table.openingWake? (activityLines o.place.block)).isSome

theorem wakesAfter_eq_true_iff {setup : ScanSetup} {lines : List String} {date : Date} :
    wakesAfter setup.table (setup.openings lines) date = true ↔
      ∃ next ∈ (setup.scan lines).1,
        date.succ? = some next.log.date ∧ next.wake.isSome = true := by
  unfold wakesAfter
  rw [days_scan, List.any_eq_true]
  constructor
  · rintro ⟨o, ho, hnext⟩
    rcases Bool.and_eq_true_iff.mp hnext with ⟨hdate, hwake⟩
    refine ⟨(o.read setup).1, List.mem_map_of_mem ho, ?_, ?_⟩
    · rw [o.date_read]
      exact of_decide_eq_true hdate
    · rw [(Opening.course_read ho).2]
      exact hwake
  · rintro ⟨day, hday, hdate, hwake⟩
    rcases List.mem_map.mp hday with ⟨o, ho, rfl⟩
    rw [o.date_read] at hdate
    rw [(Opening.course_read ho).2] at hwake
    exact ⟨o, ho, by simp [hdate, hwake]⟩

/-! ### Days without sleep -/

namespace Converter

/-- Whether a scanned day stays without sleep: it has no activity, or its last one is not sleep and
    no linked day after it tells when the sleep ended. -/
def lacksSleep (c : Converter) (openings : List Opening) (day : ScannedDay) : Bool :=
  match day.log.activities.getLast? with
  | none => true
  | some last =>
    last.path != c.table.sleepPath &&
      !(c.linksSleep && wakesAfter c.table openings day.log.date)

variable {c : Converter} {name : String} {bytes : ByteArray} {run : Diagnostics} {outcome : Outcome}

/-- Validation looks for sleep where conversion puts it. -/
theorem checkSleep_closedBy {lines : List String} (day : ScannedDay) :
    let setup := c.scanSetup name
    (c.validator name).checkSleep
        (day.log.closedBy (c.nightSleep? (setup.scan lines).1 day.log)) =
      if c.lacksSleep (setup.openings lines) day then [(c.validator name).sleepFinding day.log]
      else [] := by
  intro setup
  have hwakes : wakesAfter c.table (setup.openings lines) day.log.date = true ↔
      ∃ next ∈ (setup.scan lines).1,
        day.log.date.succ? = some next.log.date ∧ next.wake.isSome = true :=
    wakesAfter_eq_true_iff
  have hsleepPath : (c.validator name).sleepPath = c.table.sleepPath := rfl
  rw [Validator.checkSleep_eq, hsleepPath]
  cases hsleep : c.nightSleep? (setup.scan lines).1 day.log with
  | some sleep =>
    have hsome : (c.nightSleep? (setup.scan lines).1 day.log).isSome = true := by simp [hsleep]
    obtain ⟨hlinks, ⟨last, hlast, -⟩, hnext⟩ := isSome_nightSleep?_iff.mp hsome
    obtain ⟨-, -, -, hpath, -⟩ := exists_of_nightSleep? hsleep
    have hlacks : c.lacksSleep (setup.openings lines) day = false := by
      rw [lacksSleep, hlast]
      simp [hlinks, hwakes.mpr hnext]
    simp [DailyLog.closedBy, hpath, hlacks]
  | none =>
    rw [DailyLog.closedBy_none]
    cases hlast : day.log.activities.getLast? with
    | none => simp [lacksSleep, hlast]
    | some last =>
      by_cases hpath : last.path = c.table.sleepPath
      · simp [lacksSleep, hlast, hpath]
      · have hunlinked : ¬(c.linksSleep = true ∧
            wakesAfter c.table (setup.openings lines) day.log.date = true) := by
          rintro ⟨hlinks, hnext⟩
          have hsome := isSome_nightSleep?_iff.mpr
            ⟨hlinks, ⟨last, hlast, hpath⟩, hwakes.mp hnext⟩
          rw [hsleep] at hsome
          cases hsome
        simp [lacksSleep, hlast, hpath, hunlinked]

theorem lacksSleep_of_wakes {lines : List String} {o : Opening}
    (ho : o ∈ (c.scanSetup name).openings lines) {line : ActivityLine}
    (hline : (c.table.recordedLines (activityLines o.place.block)).getLast? = some line)
    (hwakes : c.table.wakes line = true) :
    c.lacksSleep ((c.scanSetup name).openings lines) (o.read (c.scanSetup name)).1 = false := by
  have hmem : line ∈ activityLines o.place.block :=
    c.table.recordedLines_sublist _ |>.mem (List.mem_of_getLast? hline)
  have htrimmed := Opening.trimmed_description ho hmem
  have hwake : c.table.isWake (trimmed line.written.description) = true := by
    rw [htrimmed]
    exact hwakes
  obtain ⟨start, hlast⟩ := c.table.getLast?_recordFrom
    (firstStart c.table c.dayStart o.place.block) hline
  have hpath : (c.table.record start line).path = c.table.sleepPath :=
    RuleTable.path_resolve_of_isWake _ hwake
  have hactivities : (o.read (c.scanSetup name)).1.log.activities.getLast? =
      some (c.table.record start line) := by
    rw [(Opening.course_read ho).1]
    exact hlast
  rw [lacksSleep, hactivities]
  simp [hpath]

theorem dayFindings_missingSleepNight (hmode : c.validation.mode = .full) (lines : List String) :
    let setup := c.scanSetup name
    let days := (setup.scan lines).1
    (c.validator name).dayFindings .missingSleepNight (c.records days) =
      (days.filter (c.lacksSleep (setup.openings lines))).map fun day =>
        (c.validator name).sleepFinding day.log := by
  intro setup days
  rw [Validator.dayFindings_of_full hmode, records_eq, List.flatMap_map, ← flatMap_ite_singleton]
  apply List.flatMap_congr
  intro day _
  rw [Validator.withCode_missingSleepNight_checkDay]
  exact checkSleep_closedBy day

/-- **Which days are reported without sleep.**  In full mode the findings of missing sleep are one
    for each scanned day that stays without sleep, and no more; a day whose last activity line is a
    wake line that did not open it is none of them. -/
theorem convert_missingSleep (hmode : c.validation.mode = .full)
    (h : (c.convert name bytes run).2 = .ok outcome) :
    let setup := c.scanSetup name
    let lines := (readLines bytes).lines
    let openings := setup.openings lines
    let days := (setup.scan lines).1
    outcome.logs.map (fun log => (log.line, log.date)) =
        days.map (fun day => (day.log.line, day.log.date)) ∧
      (withCode .missingSleepNight outcome.diagnostics).Perm
        ((days.filter (c.lacksSleep openings)).map fun day =>
          (c.validator name).sleepFinding day.log) ∧
      List.Forall₂
        (fun (o : Opening) (day : ScannedDay) =>
          day.log.date = o.date ∧
            ∀ line, (c.table.recordedLines (activityLines o.place.block)).getLast? = some line →
              c.table.wakes line = true → c.lacksSleep openings day = false)
        openings days := by
  intro setup lines openings days
  have hlogs : outcome.logs = c.records days := logs_of_convert h
  refine ⟨?_, ?_, ?_⟩
  · rw [hlogs, records_eq, List.map_map]
    rfl
  · have hfound := perm_withCode_convert h .missingSleepNight rfl (by decide) (by decide)
    rw [hlogs, dayFindings_missingSleepNight hmode] at hfound
    exact hfound
  · apply forall₂_scan
    intro o ho
    refine ⟨o.date_read setup, ?_⟩
    intro line hline hwakes
    exact lacksSleep_of_wakes ho hline hwakes

/-- Days in any order: the first ends without sleep, the second is closed with the sleep up to the
    first, the third has no activity, and the fourth ends with a wake line. -/
theorem convert_missingSleep_unordered :
    let c : Converter := {
      table := {}, validation := { mode := .full }, scope := .month, dayStart := .midnight,
      fallbackYear := 2025, linksSleep := true }
    let bytes :=
      "2025_02_01\n0630wake\n0800y\n01_31\n2300 x\n01_30\n01_29\n0800 a\n2300wake\n".toUTF8
    let setup := c.scanSetup "log.txt"
    let lines := (readLines bytes).lines
    let openings := setup.openings lines
    let days := (setup.scan lines).1
    c.validation.mode = .full ∧ days.map (c.lacksSleep openings) = [true, false, true, false] ∧
      ∃ outcome, (c.convert "log.txt" bytes .quiet).2 = .ok outcome ∧
      outcome.logs.map (fun log => (log.line, log.date)) =
        days.map (fun day => (day.log.line, day.log.date)) ∧
      (withCode .missingSleepNight outcome.diagnostics).Perm
        ((days.filter (c.lacksSleep openings)).map fun day =>
          (c.validator "log.txt").sleepFinding day.log) ∧
      List.Forall₂
        (fun (o : Opening) (day : ScannedDay) =>
          day.log.date = o.date ∧
            ∀ line, (c.table.recordedLines (activityLines o.place.block)).getLast? = some line →
              c.table.wakes line = true → c.lacksSleep openings day = false)
        openings days := by
  refine ⟨rfl, ?lacking, _, convert_of_complete ?complete .quiet,
    convert_missingSleep rfl (convert_of_complete ?complete .quiet)⟩
  case lacking => decide +kernel
  case complete => decide +kernel

end Converter

end Daybook
