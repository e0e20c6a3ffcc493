/-
  Daybook/Proofs/Record/Months.lean
  =================================
  **Grouping by month loses no log.**  Filing a log adds it to the logs that are
  filed, under whatever key, so the groups together hold each log as often as it
  was given (`perm_groupByMonth`).
-/
import Daybook.Proofs.Mapping
import Daybook.Record.Basic

namespace Daybook

theorem perm_values_fileLog (months : Mapping (List DailyLog)) (log : DailyLog) :
    (fileLog months log).values.flatten.Perm (months.values.flatten ++ [log]) :=
  Mapping.perm_insertEntry_append log.date.monthKey log months.sorted

theorem perm_values_foldl_fileLog (logs : List DailyLog) (months : Mapping (List DailyLog)) :
    (logs.foldl fileLog months).values.flatten.Perm (months.values.flatten ++ logs) := by
  induction logs generalizing months with
  | nil => simp
  | cons log rest ih =>
    have hstep := (perm_values_fileLog months log).append_right rest
    rw [List.append_assoc, List.singleton_append] at hstep
    exact (ih (fileLog months log)).trans hstep

theorem perm_sortByDate (logs : List DailyLog) : (sortByDate logs).Perm logs :=
  List.mergeSort_perm logs _

/-- **The months hold the logs**, each as often as it was given. -/
theorem perm_groupByMonth (logs : List DailyLog) :
    (groupByMonth logs).values.flatten.Perm logs := by
  have hsorted : (groupByMonth logs).values =
      (logs.foldl fileLog .empty).values.map sortByDate := by
    simp [groupByMonth, Mapping.values, Mapping.map]
  have hfiled : ((logs.foldl fileLog .empty).values.map sortByDate).flatten.Perm
      (logs.foldl fileLog .empty).values.flatten := by
    simpa [List.flatMap_def] using
      List.Perm.flatMap_left (logs.foldl fileLog .empty).values fun group _ => perm_sortByDate group
  rw [hsorted]
  simpa [Mapping.values, Mapping.empty] using hfiled.trans (perm_values_foldl_fileLog logs .empty)

end Daybook
