/-
  Daybook/Proofs/Validation/Plausible.lean
  ========================================
  **What full validation asks of a day.**  A day is plausible when it has enough
  activities, each starts where the one before it ends, none takes no time or too
  much, and the last one is sleep (`Plausible`).  Full validation finds nothing
  exactly when every day is plausible and no date is missing; otherwise it names
  each fault of each day once (`checkBatchIn_full`).
-/
import Daybook.Proofs.Validation.MissingDates

namespace Daybook

/-! ### Plausible days -/

/-- Whether a day has nothing that full validation would report. -/
structure DailyLog.Plausible (config : ValidationConfig) (sleepPath : String) (log : DailyLog) :
    Prop where
  enough : config.minActivities ≤ log.activities.length
  joined : log.activities.IsChain fun before after => before.finish = after.start
  lasting : ∀ a ∈ log.activities,
    a.seconds ≠ 0 ∧ a.seconds ≤ (config.maxActivityHours : Int) * 3600
  asleep : ∃ last, log.activities.getLast? = some last ∧ last.path = sleepPath

/-- Neighbours that are all related make a chain. -/
theorem isChain_iff_neighbours {α : Type} {R : α → α → Prop} {items : List α} :
    items.IsChain R ↔ ∀ pair ∈ neighbours items, R pair.1 pair.2 := by
  induction items with
  | nil => simp [neighbours]
  | cons first rest ih =>
    cases rest with
    | nil => simp [neighbours]
    | cons second rest =>
      rw [List.isChain_cons_cons, neighbours_cons_cons, List.forall_mem_cons, ih]

/-- The neighbours of which the later one does not start where the earlier one ends. -/
def mismatches (activities : List Activity) : List (Activity × Activity) :=
  (neighbours activities).filter fun pair => pair.1.finish ≠ pair.2.start

theorem mismatches_eq_nil_iff {activities : List Activity} :
    mismatches activities = [] ↔
      activities.IsChain fun before after => before.finish = after.start := by
  rw [isChain_iff_neighbours, mismatches, List.filter_eq_nil_iff]
  simp

namespace Validator

/-! ### The findings about a day -/

def countFinding (v : Validator) (log : DailyLog) : Diagnostic :=
  let count := log.activities.length
  v.finding .tooFewActivities log.line log.line log.line
    s!"{log.date.text} has {count} activities, expected at least {v.config.minActivities}"

def jointFinding (v : Validator) (date : Date) (pair : Activity × Activity) : Diagnostic :=
  v.finding .timeDiscontinuity pair.2.line pair.1.line pair.2.line
    (s!"'{pair.1.description}' ends at {pair.1.finish.hourMinuteText} but " ++
      s!"'{pair.2.description}' starts at {pair.2.start.hourMinuteText} on {date.text}")

def zeroFinding (v : Validator) (date : Date) (a : Activity) : Diagnostic :=
  v.finding .zeroDuration a.line a.line a.line
    s!"'{a.description}' at {a.finish.hourMinuteText} on {date.text} has zero duration"

def longFinding (v : Validator) (date : Date) (a : Activity) : Diagnostic :=
  v.finding .durationTooLong a.line a.line a.line
    (s!"'{a.description}' ending {a.finish.hourMinuteText} on {date.text} " ++
      s!"lasts {a.seconds / 60}m, more than {v.config.maxActivityHours}h")

theorem checkActivityCount_eq (v : Validator) (log : DailyLog) :
    v.checkActivityCount log =
      if log.activities.length < v.config.minActivities then [v.countFinding log] else [] := rfl

theorem checkJoints_eq (v : Validator) (log : DailyLog) :
    v.checkJoints log = (mismatches log.activities).map (v.jointFinding log.date) := by
  unfold checkJoints mismatches
  rw [← flatMap_ite_singleton]
  apply List.flatMap_congr
  rintro ⟨before, after⟩ -
  by_cases h : before.finish = after.start
  · simp [checkJoint, h]
  · simp [checkJoint, h]
    rfl

theorem checkLength_eq (v : Validator) (date : Date) (a : Activity) :
    v.checkLength date a =
      if a.seconds = 0 then [v.zeroFinding date a]
      else if a.seconds > (v.config.maxActivityHours : Int) * 3600 then [v.longFinding date a]
      else [] := rfl

/-- Whether an activity takes longer than is plausible. -/
def IsTooLong (v : Validator) (a : Activity) : Prop :=
  (v.config.maxActivityHours : Int) * 3600 < a.seconds

instance (v : Validator) (a : Activity) : Decidable (v.IsTooLong a) :=
  inferInstanceAs (Decidable (_ < _))

/-- What is found in a day: each fault once, and nothing else. -/
structure DayVerdict (v : Validator) (log : DailyLog) (found : List Diagnostic) : Prop where
  code : ∀ d ∈ found, d.code ∈ [Code.tooFewActivities, .timeDiscontinuity, .zeroDuration,
    .durationTooLong, .missingSleepNight]
  tooFew : withCode .tooFewActivities found =
    if log.activities.length < v.config.minActivities then [v.countFinding log] else []
  mismatched : withCode .timeDiscontinuity found =
    (mismatches log.activities).map (v.jointFinding log.date)
  zero : withCode .zeroDuration found =
    (log.activities.filter fun a => a.seconds = 0).map (v.zeroFinding log.date)
  tooLong : withCode .durationTooLong found =
    (log.activities.filter fun a => v.IsTooLong a).map (v.longFinding log.date)
  notBoth : ∀ a ∈ log.activities, a.seconds = 0 → ¬v.IsTooLong a
  sleepless : withCode .missingSleepNight found =
    if log.activities.getLast?.map Activity.path = some v.sleepPath then []
    else [v.sleepFinding log]

theorem not_isTooLong_of_zero {v : Validator} {a : Activity} (h : a.seconds = 0) :
    ¬v.IsTooLong a := by
  unfold IsTooLong
  omega

theorem withCode_zeroDuration_checkLengths (v : Validator) (log : DailyLog) :
    withCode .zeroDuration (log.activities.flatMap (v.checkLength log.date)) =
      (log.activities.filter fun a => a.seconds = 0).map (v.zeroFinding log.date) := by
  rw [withCode_flatMap, ← flatMap_ite_singleton]
  apply List.flatMap_congr
  intro a _
  rw [checkLength_eq]
  by_cases hzero : a.seconds = 0
  · simp [hzero, withCode, zeroFinding]
  · simp only [hzero, if_false, decide_false, Bool.false_eq_true]
    split
    · simp [withCode, longFinding]
    · rfl

theorem withCode_durationTooLong_checkLengths (v : Validator) (log : DailyLog) :
    withCode .durationTooLong (log.activities.flatMap (v.checkLength log.date)) =
      (log.activities.filter fun a => v.IsTooLong a).map (v.longFinding log.date) := by
  rw [withCode_flatMap, ← flatMap_ite_singleton]
  apply List.flatMap_congr
  intro a _
  rw [checkLength_eq]
  by_cases hzero : a.seconds = 0
  · simp [hzero, not_isTooLong_of_zero hzero, withCode, zeroFinding]
  · by_cases hlong : v.IsTooLong a
    · have hgt : a.seconds > (v.config.maxActivityHours : Int) * 3600 := hlong
      simp [hzero, hlong, hgt, withCode, longFinding]
    · have hgt : ¬a.seconds > (v.config.maxActivityHours : Int) * 3600 := hlong
      simp [hzero, hlong, hgt]

theorem dayVerdict_checkDay (v : Validator) (log : DailyLog) :
    v.DayVerdict log (v.checkDay log) := by
  constructor
  case code =>
    intro d hd
    simp only [checkDay, List.mem_append] at hd
    rcases hd with ((hcount | hjoint) | hlength) | hsleep
    · rw [code_of_mem_checkActivityCount hcount]
      decide
    · rw [code_of_mem_checkJoints hjoint]
      decide
    · obtain ⟨a, -, hd⟩ := List.mem_flatMap.mp hlength
      rcases code_of_mem_checkLength hd with hcode | hcode
      · rw [hcode]
        decide
      · rw [hcode]
        decide
    · rw [code_of_mem_checkSleep hsleep]
      decide
  case tooFew =>
    rw [withCode_checkDay, withCode_checkLengths v (by decide) (by decide)]
    simp [checkActivityCount_eq]
  case mismatched => rw [withCode_timeDiscontinuity_checkDay, checkJoints_eq]
  case zero =>
    rw [withCode_checkDay, withCode_zeroDuration_checkLengths]
    simp
  case tooLong =>
    rw [withCode_checkDay, withCode_durationTooLong_checkLengths]
    simp
  case notBoth => exact fun a _ hzero => not_isTooLong_of_zero hzero
  case sleepless => rw [withCode_missingSleepNight_checkDay, checkSleep_eq]

theorem checkActivityCount_eq_nil_iff {v : Validator} {log : DailyLog} :
    v.checkActivityCount log = [] ↔ v.config.minActivities ≤ log.activities.length := by
  rw [checkActivityCount_eq]
  split
  next hfew => simpa using hfew
  next hfew => simpa using hfew

theorem checkLength_eq_nil_iff {v : Validator} {date : Date} {a : Activity} :
    v.checkLength date a = [] ↔
      a.seconds ≠ 0 ∧ a.seconds ≤ (v.config.maxActivityHours : Int) * 3600 := by
  rw [checkLength_eq]
  split
  next hzero => simp [hzero]
  next hzero =>
    split
    next hlong =>
      constructor
      · intro hnil
        cases hnil
      · rintro ⟨-, hle⟩
        omega
    next hlong => simp [hzero, Int.not_lt.mp hlong]

theorem checkSleep_eq_nil_iff {v : Validator} {log : DailyLog} :
    v.checkSleep log = [] ↔
      ∃ last, log.activities.getLast? = some last ∧ last.path = v.sleepPath := by
  rw [checkSleep_eq, ← Option.map_eq_some_iff]
  split
  next hsleep => simp [hsleep]
  next hsleep => simp [hsleep]

/-- **A day is plausible when nothing is found in it.** -/
theorem checkDay_eq_nil_iff {v : Validator} {log : DailyLog} :
    v.checkDay log = [] ↔ log.Plausible v.config v.sleepPath := by
  unfold checkDay
  rw [List.append_eq_nil_iff, List.append_eq_nil_iff, List.append_eq_nil_iff,
    checkActivityCount_eq_nil_iff, checkJoints_eq, List.map_eq_nil_iff, mismatches_eq_nil_iff,
    List.flatMap_eq_nil_iff, checkSleep_eq_nil_iff]
  simp only [checkLength_eq_nil_iff]
  constructor
  · rintro ⟨⟨⟨henough, hjoined⟩, hlasting⟩, hasleep⟩
    exact ⟨henough, hjoined, hlasting, hasleep⟩
  · intro h
    exact ⟨⟨⟨h.enough, h.joined⟩, h.lasting⟩, h.asleep⟩

/-! ### Batches -/

theorem checkBatch_of_full {v : Validator} (hmode : v.config.mode = .full)
    (hcount : v.config.checkDayCount = false) (logs : List DailyLog) :
    v.checkBatch logs =
      (gapsOf (neighbours (sortByDate logs))).map v.gapFinding ++
        (sortByDate logs).flatMap v.checkDay := by
  unfold checkBatch
  rw [hmode, hcount, ← flatMap_checkPair, ← checkContinuity_eq]
  simp

theorem checkBatch_eq_nil_iff {v : Validator} (hmode : v.config.mode = .full)
    (hcount : v.config.checkDayCount = false) {logs : List DailyLog} :
    v.checkBatch logs = [] ↔
      (∀ date, ¬Missing (logs.map DailyLog.date) date) ∧
        ∀ log ∈ logs, log.Plausible v.config v.sleepPath := by
  have hdates : gapsOf (neighbours (sortByDate logs)) = [] ↔
      ∀ date, ¬Missing (logs.map DailyLog.date) date := by
    rw [← List.map_eq_nil_iff (f := Gap.date), List.eq_nil_iff_forall_not_mem]
    simp only [mem_date_gapsOf]
  rw [checkBatch_of_full hmode hcount, List.append_eq_nil_iff, List.map_eq_nil_iff, hdates,
    List.flatMap_eq_nil_iff]
  simp only [checkDay_eq_nil_iff, (perm_sortByDate logs).mem_iff]

/-- **Full validation is sound and complete.**  Whatever a run holds stays in front of what is
    found, and the number that comes with it counts what is found.  It is zero exactly when no date
    is missing and every day is plausible; otherwise the missing dates come first, and then, day by
    day in the order of their dates, each fault of the day. -/
theorem checkBatchIn_full (v : Validator) (hmode : v.config.mode = .full)
    (hcount : v.config.checkDayCount = false) (run : Diagnostics) (logs : List DailyLog) :
    ∃ new : List Diagnostic,
      (v.checkBatchIn run logs).1.entries = run.entries ++ new ∧
      (v.checkBatchIn run logs).2 = new.length ∧
      ((v.checkBatchIn run logs).2 = 0 ↔
        (∀ date, ¬Missing (logs.map DailyLog.date) date) ∧
          ∀ log ∈ logs, log.Plausible v.config v.sleepPath) ∧
      ∃ (gaps : List Gap) (found : DailyLog → List Diagnostic), AreMissing logs gaps ∧
        (∀ log ∈ logs, v.DayVerdict log (found log)) ∧
        new = gaps.map v.gapFinding ++ (sortByDate logs).flatMap found := by
  refine ⟨v.checkBatch logs, ?_, ?_, ?_, gapsOf (neighbours (sortByDate logs)), v.checkDay,
    areMissing_gapsOf logs, fun log _ => v.dayVerdict_checkDay log,
    checkBatch_of_full hmode hcount logs⟩
  · rw [checkBatchIn_eq, Diagnostics.entries_emitAll]
  · rw [checkBatchIn_eq]
  · rw [checkBatchIn_eq, List.length_eq_zero_iff, checkBatch_eq_nil_iff hmode hcount]

/-- A date is missing, one log of a date is empty, and the other has a gap, an activity that takes
    no time and one that takes longer than any day. -/
theorem checkBatchIn_full_every_fault :
    let v : Validator := { config := {}, sleepPath := "sleep_night", file := "log.txt" }
    let coding : Activity :=
      .between { hour := 8, minute := 0 } { hour := 9, minute := 0 } "coding" "work_coding"
    let tea : Activity :=
      .between { hour := 9, minute := 30 } { hour := 9, minute := 30 } "tea" "rest_tea"
    let game : Activity :=
      { start := { hour := 9, minute := 30 }, finish := { hour := 10, minute := 0 },
        description := "game", path := "rest_game", seconds := 9223372036854775807 }
    let first : DailyLog := { date := { year := 2024, month := 2, day := 28 }, line := 7 }
    let empty : DailyLog := { date := { year := 2024, month := 3, day := 1 }, line := 1 }
    let faulty : DailyLog := { empty with activities := [coding, tea, game], line := 2 }
    let logs := [faulty, empty, first]
    let run := (Diagnostics.quiet.emit (v.countFinding empty)).1
    v.config.mode = .full ∧ v.config.checkDayCount = false ∧
      ∃ new : List Diagnostic,
        (v.checkBatchIn run logs).1.entries = v.countFinding empty :: new ∧
        (v.checkBatchIn run logs).2 = new.length ∧ new.length ≠ 0 ∧
        ∃ found, v.DayVerdict faulty found ∧
          withCode .timeDiscontinuity found = [v.jointFinding faulty.date (coding, tea)] ∧
          withCode .zeroDuration found = [v.zeroFinding faulty.date tea] ∧
          withCode .durationTooLong found = [v.longFinding faulty.date game] := by
  intro v coding tea game first empty faulty logs run
  have hmode : v.config.mode = .full := by decide
  have hcount : v.config.checkDayCount = false := by decide
  obtain ⟨new, hentries, hlength, hzero, gaps, found, -, hfound, -⟩ :=
    v.checkBatchIn_full hmode hcount run logs
  have hfaulty : v.DayVerdict faulty (found faulty) := hfound faulty List.mem_cons_self
  refine ⟨hmode, hcount, new, hentries, hlength, ?_, found faulty, hfaulty, ?_, ?_, ?_⟩
  · rw [← hlength]
    intro hnothing
    obtain ⟨last, hlast, -⟩ := ((hzero.mp hnothing).2 empty (by simp [logs])).asleep
    cases hlast
  · have hpairs : mismatches faulty.activities = [(coding, tea)] := by decide
    rw [hfaulty.mismatched, hpairs, List.map_singleton]
  · have hteas : (faulty.activities.filter fun a => a.seconds = 0) = [tea] := by decide
    rw [hfaulty.zero, hteas, List.map_singleton]
  · have hgames : (faulty.activities.filter fun a => v.IsTooLong a) = [game] := by decide
    rw [hfaulty.tooLong, hgames, List.map_singleton]

end Validator

end Daybook
