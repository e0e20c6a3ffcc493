/-
  Daybook/Proofs/Validation/Finding.lean
  ======================================
  **What a check raises.**  Every finding of validation is one about the
  consistency of records, raised as an error at lines of the file that the
  validator names (`raises_of_mem_check`).  The name stands in the
  span and has no influence on anything else, so the same records checked under
  another name raise the same findings (`map_inFile_checkBatch`).
-/
import Daybook.Validation.Batch
import Mathlib.Data.List.Basic

namespace Daybook

/-! ### The file of a finding -/

/-- The finding with another name of the file in its span. -/
def Diagnostic.inFile (file : String) (d : Diagnostic) : Diagnostic :=
  { d with span := d.span.map fun span => { span with file } }

namespace Validator

/-- The same checks under another name of the file. -/
def named (v : Validator) (file : String) : Validator := { v with file }

/-! ### Every check by itself -/

theorem map_inFile_checkContinuity (v : Validator) (file : String) (logs : List DailyLog) :
    ((v.named file).checkContinuity logs).map (Diagnostic.inFile v.file) =
      v.checkContinuity logs := by
  unfold checkContinuity checkPair
  rw [List.map_flatMap]
  apply List.flatMap_congr
  intro pair _
  rw [List.map_map]
  rfl

theorem map_inFile_checkMonths (v : Validator) (file : String) (logs : List DailyLog) :
    ((v.named file).checkMonths logs).map (Diagnostic.inFile v.file) = v.checkMonths logs := by
  unfold checkMonths
  rw [List.map_flatMap]
  apply List.flatMap_congr
  intro first _
  unfold checkMonth
  split
  · rfl
  · dsimp only
    split
    · rfl
    · rfl

theorem map_inFile_checkJoints (v : Validator) (file : String) (log : DailyLog) :
    ((v.named file).checkJoints log).map (Diagnostic.inFile v.file) = v.checkJoints log := by
  unfold checkJoints
  rw [List.map_flatMap]
  apply List.flatMap_congr
  rintro ⟨before, after⟩ -
  dsimp only [checkJoint]
  split
  · rfl
  · rfl

theorem map_inFile_checkLength (v : Validator) (file : String) (date : Date) (a : Activity) :
    ((v.named file).checkLength date a).map (Diagnostic.inFile v.file) =
      v.checkLength date a := by
  unfold checkLength named
  dsimp only
  split
  · rfl
  · split
    · rfl
    · rfl

theorem map_inFile_checkActivityCount (v : Validator) (file : String) (log : DailyLog) :
    ((v.named file).checkActivityCount log).map (Diagnostic.inFile v.file) =
      v.checkActivityCount log := by
  unfold checkActivityCount named
  dsimp only
  split
  · rfl
  · rfl

theorem map_inFile_checkSleep (v : Validator) (file : String) (log : DailyLog) :
    ((v.named file).checkSleep log).map (Diagnostic.inFile v.file) = v.checkSleep log := by
  unfold checkSleep named
  dsimp only
  split
  · rfl
  · rfl

theorem map_inFile_checkDay (v : Validator) (file : String) (log : DailyLog) :
    ((v.named file).checkDay log).map (Diagnostic.inFile v.file) = v.checkDay log := by
  have hlengths : (log.activities.flatMap ((v.named file).checkLength log.date)).map
      (Diagnostic.inFile v.file) = log.activities.flatMap (v.checkLength log.date) := by
    rw [List.map_flatMap]
    apply List.flatMap_congr
    intro a _
    exact v.map_inFile_checkLength file log.date a
  unfold checkDay
  rw [List.map_append, List.map_append, List.map_append, map_inFile_checkActivityCount,
    map_inFile_checkJoints, map_inFile_checkSleep, hlengths]

/-! ### Batches -/

/-- **The name of the file has no influence on what is found.** -/
theorem map_inFile_checkBatch (v : Validator) (file : String) (logs : List DailyLog) :
    ((v.named file).checkBatch logs).map (Diagnostic.inFile v.file) = v.checkBatch logs := by
  have hdays : ((sortByDate logs).flatMap (v.named file).checkDay).map
      (Diagnostic.inFile v.file) = (sortByDate logs).flatMap v.checkDay := by
    rw [List.map_flatMap]
    apply List.flatMap_congr
    intro log _
    exact v.map_inFile_checkDay file log
  have hconfig : (v.named file).config = v.config := rfl
  unfold checkBatch
  rw [hconfig]
  dsimp only
  cases v.config.mode with
  | none => rfl
  | continuity => exact v.map_inFile_checkContinuity file _
  | full =>
    dsimp only
    rw [List.map_append, List.map_append, hdays, map_inFile_checkContinuity]
    split
    · rw [map_inFile_checkMonths]
    · rfl

theorem map_inFile_check (v : Validator) (file : String) (scope : ValidationScope)
    (logs : List DailyLog) :
    ((v.named file).check scope logs).map (Diagnostic.inFile v.file) = v.check scope logs := by
  cases scope with
  | range => exact v.map_inFile_checkBatch file logs
  | month =>
    unfold check
    dsimp only
    rw [List.map_flatMap]
    apply List.flatMap_congr
    intro batch _
    exact v.map_inFile_checkBatch file batch

/-! ### What findings are -/

/-- Whether a finding is one that checks raise: about consistency, and at lines of the file. -/
def Raises (v : Validator) (d : Diagnostic) : Prop :=
  ∃ code line first last message, code.family = .logicalConsistency ∧
    d = v.finding code line first last message

theorem Raises.isLogical {v : Validator} {d : Diagnostic} (h : v.Raises d) :
    d.isLogical = true := by
  obtain ⟨code, line, first, last, message, hfamily, rfl⟩ := h
  have hcode : (v.finding code line first last message).code = code := rfl
  rw [Diagnostic.isLogical, hcode, hfamily]
  rfl

theorem Raises.isError {v : Validator} {d : Diagnostic} (h : v.Raises d) : d.isError = true := by
  obtain ⟨code, line, first, last, message, hfamily, rfl⟩ := h
  have hseverity : (v.finding code line first last message).severity = code.defaultSeverity := rfl
  rw [Diagnostic.isError, hseverity]
  cases code with
  | missingDate | incorrectDayCount | timeDiscontinuity | missingSleepNight | tooFewActivities
  | zeroDuration | durationTooLong => rfl
  | _ => cases hfamily

/-- Whether a finding is about the one line that it is filed under; a missing date never is. -/
def RaisesAtLine (v : Validator) (d : Diagnostic) : Prop :=
  ∃ code line message, code.family = .logicalConsistency ∧ code ≠ .missingDate ∧
    d = v.finding code line line line message

theorem RaisesAtLine.raises {v : Validator} {d : Diagnostic} (h : v.RaisesAtLine d) :
    v.Raises d := by
  obtain ⟨code, line, message, hfamily, -, hd⟩ := h
  exact ⟨code, line, line, line, message, hfamily, hd⟩

section

variable {v : Validator} {d : Diagnostic}

theorem raisesAtLine_of_mem_singleton {code : Code} {line : Nat} {message : String}
    (hfamily : code.family = .logicalConsistency) (hcode : code ≠ .missingDate)
    (hd : d ∈ [v.finding code line line line message]) : v.RaisesAtLine d :=
  ⟨code, line, message, hfamily, hcode, List.mem_singleton.mp hd⟩

theorem raises_of_mem_checkContinuity {logs : List DailyLog} (hd : d ∈ v.checkContinuity logs) :
    v.Raises d := by
  rcases List.mem_flatMap.mp hd with ⟨pair, -, hd⟩
  rcases List.mem_map.mp hd with ⟨date, -, rfl⟩
  exact ⟨_, _, _, _, _, rfl, rfl⟩

theorem raisesAtLine_of_mem_checkMonths {logs : List DailyLog} (hd : d ∈ v.checkMonths logs) :
    v.RaisesAtLine d := by
  rcases List.mem_flatMap.mp hd with ⟨first, -, hd⟩
  unfold checkMonth at hd
  split at hd
  · cases hd
  · dsimp only at hd
    split at hd
    · cases hd
    · exact raisesAtLine_of_mem_singleton rfl (by decide) hd

theorem raises_of_mem_checkJoints {log : DailyLog} (hd : d ∈ v.checkJoints log) :
    v.Raises d := by
  rcases List.mem_flatMap.mp hd with ⟨pair, -, hd⟩
  dsimp only [checkJoint] at hd
  split at hd
  · cases hd
  · exact ⟨_, _, _, _, _, rfl, List.mem_singleton.mp hd⟩

theorem raisesAtLine_of_mem_checkLength {date : Date} {a : Activity}
    (hd : d ∈ v.checkLength date a) : v.RaisesAtLine d := by
  dsimp only [checkLength] at hd
  split at hd
  · exact raisesAtLine_of_mem_singleton rfl (by decide) hd
  · split at hd
    · exact raisesAtLine_of_mem_singleton rfl (by decide) hd
    · cases hd

/-- What is found in one day is about one line, unless two activities do not join. -/
theorem raisesAtLine_of_mem_checkDay {log : DailyLog} (hd : d ∈ v.checkDay log) :
    v.RaisesAtLine d ∨ d ∈ v.checkJoints log := by
  simp only [checkDay, List.mem_append] at hd
  rcases hd with ((hcount | hjoint) | hlength) | hsleep
  · dsimp only [checkActivityCount] at hcount
    split at hcount
    · exact .inl (raisesAtLine_of_mem_singleton rfl (by decide) hcount)
    · cases hcount
  · exact .inr hjoint
  · rcases List.mem_flatMap.mp hlength with ⟨a, -, hd⟩
    exact .inl (raisesAtLine_of_mem_checkLength hd)
  · dsimp only [checkSleep] at hsleep
    split at hsleep
    · cases hsleep
    · exact .inl (raisesAtLine_of_mem_singleton rfl (by decide) hsleep)

theorem raises_of_mem_checkDay {log : DailyLog} (hd : d ∈ v.checkDay log) : v.Raises d := by
  rcases raisesAtLine_of_mem_checkDay hd with hline | hjoint
  · exact hline.raises
  · exact raises_of_mem_checkJoints hjoint

/-- **Checks raise errors about consistency, at lines of their file.** -/
theorem raises_of_mem_checkBatch {logs : List DailyLog} (hd : d ∈ v.checkBatch logs) :
    v.Raises d := by
  unfold checkBatch at hd
  dsimp only at hd
  split at hd
  · cases hd
  · exact raises_of_mem_checkContinuity hd
  · rcases List.mem_append.mp hd with hd | hday
    · rcases List.mem_append.mp hd with hdate | hmonth
      · exact raises_of_mem_checkContinuity hdate
      · split at hmonth
        · exact (raisesAtLine_of_mem_checkMonths hmonth).raises
        · cases hmonth
    · rcases List.mem_flatMap.mp hday with ⟨log, -, hd⟩
      exact raises_of_mem_checkDay hd

theorem raises_of_mem_check {scope : ValidationScope} {logs : List DailyLog}
    (hd : d ∈ v.check scope logs) : v.Raises d := by
  cases scope with
  | range => exact raises_of_mem_checkBatch hd
  | month =>
    rcases List.mem_flatMap.mp hd with ⟨batch, -, hd⟩
    exact raises_of_mem_checkBatch hd

end

end Validator

end Daybook
