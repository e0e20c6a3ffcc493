/-
  Daybook/Proofs/Validation/Run.lean
  ==================================
  **Validation in a run.**  Checking batches one after the other adds to the
  findings of a run what the checks find in the batches together, and the number
  that comes with it says how many findings that are.  What the run held before is
  not looked at.
-/
import Daybook.Proofs.Diagnostics
import Daybook.Validation.Batch

namespace Daybook.Validator

theorem checkBatchIn_eq (v : Validator) (run : Diagnostics) (logs : List DailyLog) :
    v.checkBatchIn run logs =
      ((run.emitAll (v.checkBatch logs)).1, (v.checkBatch logs).length) := by
  unfold checkBatchIn
  rw [Prod.mk.injEq]
  constructor
  · rfl
  · rw [Diagnostics.size_emitAll]
    omega

theorem checkBatchesIn_eq (v : Validator) (run : Diagnostics) (batches : List (List DailyLog)) :
    v.checkBatchesIn run batches =
      ((run.emitAll (batches.flatMap v.checkBatch)).1, (batches.flatMap v.checkBatch).length) := by
  induction batches generalizing run with
  | nil => rfl
  | cons batch rest ih =>
    unfold checkBatchesIn
    rw [checkBatchIn_eq]
    dsimp only
    rw [ih, List.flatMap_cons, Diagnostics.emitAll_append, List.length_append]

/-- **A run gains what the checks find, and nothing else.** -/
theorem checkIn_eq (v : Validator) (run : Diagnostics) (scope : ValidationScope)
    (logs : List DailyLog) :
    v.checkIn run scope logs =
      ((run.emitAll (v.check scope logs)).1, (v.check scope logs).length) := by
  cases scope with
  | range => exact v.checkBatchIn_eq run logs
  | month => exact v.checkBatchesIn_eq run (groupByMonth logs).values

end Daybook.Validator
