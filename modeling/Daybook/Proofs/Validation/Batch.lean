/-
  Daybook/Proofs/Validation/Batch.lean
  ====================================
  **What validation finds about each day.**  The checks of a batch raise different
  codes: dates and months are looked at together, all else day by day.  Batches
  are the logs, sorted and perhaps grouped, so the findings of a day code are
  those of each log, as often as the log was given (`perm_withCode_check`).
-/
import Daybook.Proofs.Diagnostic.Finding
import Daybook.Proofs.Record.Months
import Daybook.Validation.Batch

namespace Daybook

namespace Validator

@[simp] theorem finding_code (v : Validator) (code : Code) (line first last : Nat)
    (message : String) : (v.finding code line first last message).code = code := rfl

/-! ### The codes of the checks -/

theorem code_of_mem_checkContinuity {v : Validator} {logs : List DailyLog} {d : Diagnostic}
    (hd : d ∈ v.checkContinuity logs) : d.code = .missingDate := by
  rcases List.mem_flatMap.mp hd with ⟨⟨before, after⟩, -, hd⟩
  rcases List.mem_map.mp hd with ⟨date, -, rfl⟩
  rfl

theorem code_of_mem_checkMonths {v : Validator} {logs : List DailyLog} {d : Diagnostic}
    (hd : d ∈ v.checkMonths logs) : d.code = .incorrectDayCount := by
  rcases List.mem_flatMap.mp hd with ⟨first, -, hd⟩
  unfold checkMonth at hd
  split at hd
  · cases hd
  · dsimp only at hd
    split at hd
    · cases hd
    · obtain rfl := List.mem_singleton.mp hd
      rfl

theorem code_of_mem_checkActivityCount {v : Validator} {log : DailyLog} {d : Diagnostic}
    (hd : d ∈ v.checkActivityCount log) : d.code = .tooFewActivities := by
  dsimp only [checkActivityCount] at hd
  split at hd
  · obtain rfl := List.mem_singleton.mp hd
    rfl
  · cases hd

theorem code_of_mem_checkJoints {v : Validator} {log : DailyLog} {d : Diagnostic}
    (hd : d ∈ v.checkJoints log) : d.code = .timeDiscontinuity := by
  rcases List.mem_flatMap.mp hd with ⟨⟨before, after⟩, -, hd⟩
  dsimp only [checkJoint] at hd
  split at hd
  · cases hd
  · obtain rfl := List.mem_singleton.mp hd
    rfl

theorem code_of_mem_checkLength {v : Validator} {date : Date} {a : Activity} {d : Diagnostic}
    (hd : d ∈ v.checkLength date a) : d.code = .zeroDuration ∨ d.code = .durationTooLong := by
  dsimp only [checkLength] at hd
  split at hd
  · obtain rfl := List.mem_singleton.mp hd
    exact .inl rfl
  · split at hd
    · obtain rfl := List.mem_singleton.mp hd
      exact .inr rfl
    · cases hd

theorem code_of_mem_checkSleep {v : Validator} {log : DailyLog} {d : Diagnostic}
    (hd : d ∈ v.checkSleep log) : d.code = .missingSleepNight := by
  dsimp only [checkSleep] at hd
  split at hd
  · cases hd
  · obtain rfl := List.mem_singleton.mp hd
    rfl

/-! ### One day -/

/-- The findings of one code about a day: each check but that of the lengths has a code of its
    own. -/
theorem withCode_checkDay (v : Validator) (code : Code) (log : DailyLog) :
    withCode code (v.checkDay log) =
      (if code = .tooFewActivities then v.checkActivityCount log else []) ++
        (if code = .timeDiscontinuity then v.checkJoints log else []) ++
        withCode code (log.activities.flatMap (v.checkLength log.date)) ++
        (if code = .missingSleepNight then v.checkSleep log else []) := by
  have hcount : withCode code (v.checkActivityCount log) =
      if code = .tooFewActivities then v.checkActivityCount log else [] :=
    withCode_of_code (fun _ hd => code_of_mem_checkActivityCount hd) code
  have hjoints : withCode code (v.checkJoints log) =
      if code = .timeDiscontinuity then v.checkJoints log else [] :=
    withCode_of_code (fun _ hd => code_of_mem_checkJoints hd) code
  have hsleep : withCode code (v.checkSleep log) =
      if code = .missingSleepNight then v.checkSleep log else [] :=
    withCode_of_code (fun _ hd => code_of_mem_checkSleep hd) code
  unfold checkDay
  rw [withCode_append, withCode_append, withCode_append, hcount, hjoints, hsleep]

theorem withCode_checkLengths (v : Validator) {code : Code} (hzero : code ≠ .zeroDuration)
    (hlong : code ≠ .durationTooLong) (log : DailyLog) :
    withCode code (log.activities.flatMap (v.checkLength log.date)) = [] := by
  apply withCode_eq_nil
  intro d hd
  rcases List.mem_flatMap.mp hd with ⟨a, -, hd⟩
  rcases code_of_mem_checkLength hd with h | h
  · exact fun heq => hzero (heq ▸ h)
  · exact fun heq => hlong (heq ▸ h)

theorem withCode_timeDiscontinuity_checkDay (v : Validator) (log : DailyLog) :
    withCode .timeDiscontinuity (v.checkDay log) = v.checkJoints log := by
  rw [withCode_checkDay, withCode_checkLengths v (by decide) (by decide)]
  simp

theorem withCode_missingSleepNight_checkDay (v : Validator) (log : DailyLog) :
    withCode .missingSleepNight (v.checkDay log) = v.checkSleep log := by
  rw [withCode_checkDay, withCode_checkLengths v (by decide) (by decide)]
  simp

/-- The finding that a day does not end with sleep. -/
def sleepFinding (v : Validator) (log : DailyLog) : Diagnostic :=
  let line := (log.activities.getLast?.map Activity.line).getD log.line
  v.finding .missingSleepNight line line line s!"{log.date.text} does not end with '{v.sleepPath}'"

theorem checkSleep_eq (v : Validator) (log : DailyLog) :
    v.checkSleep log =
      if log.activities.getLast?.map Activity.path = some v.sleepPath then []
      else [v.sleepFinding log] := rfl

/-! ### Batches -/

/-- The findings of the days of a batch, if the mode asks for them. -/
def dayFindings (v : Validator) (code : Code) (logs : List DailyLog) : List Diagnostic :=
  if v.config.mode = .full then logs.flatMap fun log => withCode code (v.checkDay log) else []

theorem dayFindings_of_full {v : Validator} (h : v.config.mode = .full) (code : Code)
    (logs : List DailyLog) :
    v.dayFindings code logs = logs.flatMap fun log => withCode code (v.checkDay log) := by
  unfold dayFindings
  rw [if_pos h]

theorem dayFindings_eq_nil {v : Validator} {code : Code} {logs : List DailyLog}
    (h : ∀ log ∈ logs, withCode code (v.checkDay log) = []) : v.dayFindings code logs = [] := by
  unfold dayFindings
  split
  · exact List.flatMap_eq_nil_iff.mpr h
  · rfl

theorem dayFindings_perm (v : Validator) (code : Code) {logs logs' : List DailyLog}
    (h : logs.Perm logs') : (v.dayFindings code logs).Perm (v.dayFindings code logs') := by
  unfold dayFindings
  split
  · exact h.flatMap_right _
  · exact .refl _

theorem flatMap_dayFindings (v : Validator) (code : Code) (batches : List (List DailyLog)) :
    batches.flatMap (v.dayFindings code) = v.dayFindings code batches.flatten := by
  induction batches with
  | nil => simp [dayFindings]
  | cons batch rest ih =>
    rw [List.flatMap_cons, ih, List.flatten_cons]
    unfold dayFindings
    split
    · rw [List.flatMap_append]
    · rfl

theorem withCode_checkBatch (v : Validator) {code : Code} (hdate : code ≠ .missingDate)
    (hcount : code ≠ .incorrectDayCount) (logs : List DailyLog) :
    withCode code (v.checkBatch logs) = v.dayFindings code (sortByDate logs) := by
  have hcontinuity : withCode code (v.checkContinuity (sortByDate logs)) = [] := by
    apply withCode_eq_nil
    intro d hd
    rw [code_of_mem_checkContinuity hd]
    exact hdate.symm
  have hmonths : withCode code (v.checkMonths (sortByDate logs)) = [] := by
    apply withCode_eq_nil
    intro d hd
    rw [code_of_mem_checkMonths hd]
    exact hcount.symm
  unfold checkBatch dayFindings
  cases v.config.mode with
  | none => rfl
  | continuity => exact hcontinuity
  | full =>
    dsimp only
    rw [withCode_append, withCode_append, hcontinuity, withCode_flatMap]
    split <;> simp [hmonths]

/-- **Validation looks at each day for itself**, however the days are batched. -/
theorem perm_withCode_check (v : Validator) {code : Code} (hdate : code ≠ .missingDate)
    (hcount : code ≠ .incorrectDayCount) (scope : ValidationScope) (logs : List DailyLog) :
    (withCode code (v.check scope logs)).Perm (v.dayFindings code logs) := by
  have hbatch (batch : List DailyLog) :
      (withCode code (v.checkBatch batch)).Perm (v.dayFindings code batch) := by
    rw [withCode_checkBatch v hdate hcount]
    exact v.dayFindings_perm code (perm_sortByDate batch)
  cases scope with
  | range => exact hbatch logs
  | month =>
    have hgroups :=
      List.Perm.flatMap_left (groupByMonth logs).values fun batch _ => hbatch batch
    rw [flatMap_dayFindings, ← withCode_flatMap] at hgroups
    exact hgroups.trans (v.dayFindings_perm code (perm_groupByMonth logs))

/-! ### Modes -/

/-- The same checks in another mode. -/
def inMode (v : Validator) (mode : ValidationMode) : Validator :=
  { v with config := { v.config with mode } }

theorem inMode_of_eq {v : Validator} {mode : ValidationMode} (h : v.config.mode = mode) :
    v.inMode mode = v := by
  subst h
  rfl

theorem check_of_none {v : Validator} (h : v.config.mode = .none) (scope : ValidationScope)
    (logs : List DailyLog) : v.check scope logs = [] := by
  have hbatch (batch : List DailyLog) : v.checkBatch batch = [] := by
    unfold checkBatch
    rw [h]
  cases scope with
  | range => exact hbatch logs
  | month => exact List.flatMap_eq_nil_iff.mpr fun batch _ => hbatch batch

theorem withCode_missingDate_checkDay (v : Validator) (log : DailyLog) :
    withCode .missingDate (v.checkDay log) = [] := by
  rw [withCode_checkDay, withCode_checkLengths v (by decide) (by decide)]
  rfl

theorem checkBatch_inMode_continuity (v : Validator) (logs : List DailyLog) :
    (v.inMode .continuity).checkBatch logs =
      withCode .missingDate ((v.inMode .full).checkBatch logs) := by
  have hdates : withCode .missingDate ((v.inMode .full).checkContinuity (sortByDate logs)) =
      (v.inMode .full).checkContinuity (sortByDate logs) := by
    rw [withCode_of_code (fun _ hd => code_of_mem_checkContinuity hd), if_pos rfl]
  have hmonths : withCode .missingDate ((v.inMode .full).checkMonths (sortByDate logs)) = [] := by
    apply withCode_eq_nil
    intro d hd
    rw [code_of_mem_checkMonths hd]
    decide
  have hdays :
      withCode .missingDate ((sortByDate logs).flatMap (v.inMode .full).checkDay) = [] := by
    rw [withCode_flatMap]
    exact List.flatMap_eq_nil_iff.mpr fun log _ => withCode_missingDate_checkDay _ log
  have hfull : (v.inMode .full).checkBatch logs =
      (v.inMode .full).checkContinuity (sortByDate logs) ++
        (if v.config.checkDayCount then (v.inMode .full).checkMonths (sortByDate logs) else []) ++
        (sortByDate logs).flatMap (v.inMode .full).checkDay := rfl
  rw [hfull, withCode_append, withCode_append, hdates, hdays]
  split
  · rw [hmonths, List.append_nil, List.append_nil]
    rfl
  · rw [withCode_nil, List.append_nil, List.append_nil]
    rfl

/-- **Checking continuity finds the missing dates that all checks find.** -/
theorem check_inMode_continuity (v : Validator) (scope : ValidationScope) (logs : List DailyLog) :
    (v.inMode .continuity).check scope logs =
      withCode .missingDate ((v.inMode .full).check scope logs) := by
  cases scope with
  | range => exact v.checkBatch_inMode_continuity logs
  | month =>
    unfold check
    dsimp only
    rw [withCode_flatMap]
    apply List.flatMap_congr
    intro batch _
    exact v.checkBatch_inMode_continuity batch

end Validator

end Daybook
