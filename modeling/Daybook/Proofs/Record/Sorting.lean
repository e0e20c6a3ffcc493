/-
  Daybook/Proofs/Record/Sorting.lean
  ==================================
  **Sorting is stable.**  A log that is sorted in among others comes to stand
  before those of its own date and of later ones, so what others there are makes no
  difference to the order of some logs: the logs selected from the sorted ones are
  the selected logs, sorted (`filter_sortByDate`).  Logs of different dates stand
  in order in one way only (`sortByDate_congr`).
-/
import Daybook.Proofs.Calendar.DayNumber
import Daybook.Proofs.Record.Months
import Mathlib.Data.List.Nodup

namespace Daybook

/-! ### Order -/

theorem trans_decide_date (a b c : DailyLog) (hab : decide (a.date ≤ b.date) = true)
    (hbc : decide (b.date ≤ c.date) = true) : decide (a.date ≤ c.date) = true :=
  decide_eq_true (le_trans (of_decide_eq_true hab) (of_decide_eq_true hbc))

theorem total_decide_date (a b : DailyLog) :
    (decide (a.date ≤ b.date) || decide (b.date ≤ a.date)) = true := by
  simpa using le_total a.date b.date

theorem pairwise_sortByDate (logs : List DailyLog) :
    (sortByDate logs).Pairwise fun a b => a.date ≤ b.date := by
  unfold sortByDate
  simpa using List.pairwise_mergeSort trans_decide_date total_decide_date logs

theorem sortByDate_of_pairwise {logs : List DailyLog}
    (h : logs.Pairwise fun a b => a.date ≤ b.date) : sortByDate logs = logs :=
  List.mergeSort_of_pairwise (by simpa using h)

theorem sortByDate_sortByDate (logs : List DailyLog) :
    sortByDate (sortByDate logs) = sortByDate logs :=
  sortByDate_of_pairwise (pairwise_sortByDate logs)

/-! ### Sorting a log in -/

/-- A log is sorted in behind the logs that are earlier than it. -/
theorem exists_sortByDate_cons (log : DailyLog) (logs : List DailyLog) :
    ∃ earlier later, sortByDate (log :: logs) = earlier ++ log :: later ∧
      sortByDate logs = earlier ++ later ∧
      (∀ other ∈ earlier, ¬log.date ≤ other.date) ∧ ∀ other ∈ later, log.date ≤ other.date := by
  obtain ⟨earlier, later, hcons, hrest, hearlier⟩ :=
    List.mergeSort_cons trans_decide_date total_decide_date log logs
  have hsorted := pairwise_sortByDate (log :: logs)
  unfold sortByDate at hsorted
  rw [hcons] at hsorted
  refine ⟨earlier, later, hcons, hrest, ?_, ?_⟩
  · intro other hother
    simpa using hearlier other hother
  · exact (List.pairwise_cons.mp (List.pairwise_append.mp hsorted).2.1).1

/-- There is one place where a log can be sorted in. -/
theorem eq_of_append_eq_append {date : Date} {xs ys xs' ys' : List DailyLog}
    (h : xs ++ ys = xs' ++ ys') (hxs : ∀ x ∈ xs, ¬date ≤ x.date) (hys : ∀ y ∈ ys, date ≤ y.date)
    (hxs' : ∀ x ∈ xs', ¬date ≤ x.date) (hys' : ∀ y ∈ ys', date ≤ y.date) :
    xs = xs' ∧ ys = ys' := by
  have hcut {front back : List DailyLog} (hfront : ∀ x ∈ front, ¬date ≤ x.date)
      (hback : ∀ y ∈ back, date ≤ y.date) :
      ((front ++ back).filter fun x => !decide (date ≤ x.date)) = front := by
    rw [List.filter_append, List.filter_eq_self.mpr (by simpa using hfront),
      List.filter_eq_nil_iff.mpr (by simpa using hback), List.append_nil]
  have hfront : xs = xs' := by
    rw [← hcut hxs hys, h, hcut hxs' hys']
  subst hfront
  exact ⟨rfl, List.append_cancel_left h⟩

/-- **Sorting is stable**: what else is sorted does not change the order of selected logs. -/
theorem filter_sortByDate (p : DailyLog → Bool) (logs : List DailyLog) :
    (sortByDate logs).filter p = sortByDate (logs.filter p) := by
  induction logs with
  | nil => simp [sortByDate]
  | cons log rest ih =>
    obtain ⟨earlier, later, hcons, hrest, hearlier, hlater⟩ := exists_sortByDate_cons log rest
    rw [hrest, List.filter_append] at ih
    rw [hcons, List.filter_append]
    by_cases hp : p log = true
    · obtain ⟨earlier', later', hcons', hrest', hearlier', hlater'⟩ :=
        exists_sortByDate_cons log (rest.filter p)
      rw [hrest'] at ih
      obtain ⟨hfront, hback⟩ := eq_of_append_eq_append ih
        (fun x hx => hearlier x (List.mem_of_mem_filter hx))
        (fun y hy => hlater y (List.mem_of_mem_filter hy)) hearlier' hlater'
      rw [List.filter_cons_of_pos hp, List.filter_cons_of_pos hp, hcons', hfront, hback]
    · rw [List.filter_cons_of_neg hp, List.filter_cons_of_neg hp, ih]

/-- **The logs of one date keep their order.** -/
theorem filter_date_sortByDate (date : Date) (logs : List DailyLog) :
    (sortByDate logs).filter (fun log => log.date = date) =
      logs.filter fun log => log.date = date := by
  rw [filter_sortByDate]
  apply sortByDate_of_pairwise
  apply List.pairwise_of_forall_mem_list
  intro a ha b hb
  have hdate : a.date = date := by simpa using (List.mem_filter.mp ha).2
  have hdate' : b.date = date := by simpa using (List.mem_filter.mp hb).2
  exact le_of_eq (hdate.trans hdate'.symm)

/-- The first log of a date stays the first of it. -/
theorem find?_sortByDate (date : Date) (logs : List DailyLog) :
    (sortByDate logs).find? (fun log => log.date = date) =
      logs.find? fun log => log.date = date := by
  rw [← List.head?_filter, ← List.head?_filter, filter_date_sortByDate]

/-! ### Logs of different dates -/

theorem sortByDate_congr {logs logs' : List DailyLog} (hperm : logs.Perm logs')
    (hdates : (logs.map DailyLog.date).Nodup) : sortByDate logs = sortByDate logs' := by
  have hsame : (sortByDate logs).Perm (sortByDate logs') :=
    (perm_sortByDate logs).trans (hperm.trans (perm_sortByDate logs').symm)
  refine List.Perm.eq_of_pairwise ?_ (pairwise_sortByDate logs) (pairwise_sortByDate logs') hsame
  intro a b ha hb hab hba
  rw [(perm_sortByDate logs).mem_iff] at ha
  rw [(perm_sortByDate logs').mem_iff, ← hperm.mem_iff] at hb
  exact List.inj_on_of_nodup_map hdates ha hb (le_antisymm hab hba)

end Daybook
