/-
  Daybook/Proofs/Record/MonthGroups.lean
  ======================================
  **A month that is grouped again stays as it is.**  The logs that are filed under
  a key are logs of that month, at least one of them and in the order of their
  dates, so grouping them gives one group with the same logs in the same order
  (`values_groupByMonth_of_mem`).
-/
import Daybook.Proofs.Record.Sorting

namespace Daybook

/-! ### Logs of one month -/

/-- Whether there are logs, and all of them belong under the key. -/
structure OfMonth (key : String) (logs : List DailyLog) : Prop where
  ne_nil : logs ≠ []
  key : ∀ log ∈ logs, log.date.monthKey = key

theorem ofMonth_of_mem_fileLog {months : Mapping (List DailyLog)}
    (h : ∀ month ∈ months.entries, OfMonth month.1 month.2) {log : DailyLog} :
    ∀ month ∈ (fileLog months log).entries, OfMonth month.1 month.2 := by
  intro month hmonth
  rcases Mapping.mem_insertEntry hmonth with rfl | hmonth
  · refine ⟨by simp, ?_⟩
    intro other hother
    rcases List.mem_append.mp hother with hother | hother
    · cases hold : months.get? log.date.monthKey with
      | none =>
        rw [hold] at hother
        cases hother
      | some old =>
        rw [hold] at hother
        exact (h _ (Mapping.mem_of_get?_eq_some hold)).key other hother
    · obtain rfl := List.mem_singleton.mp hother
      rfl
  · exact h month hmonth

theorem ofMonth_of_mem_foldl_fileLog (logs : List DailyLog) {months : Mapping (List DailyLog)}
    (h : ∀ month ∈ months.entries, OfMonth month.1 month.2) :
    ∀ month ∈ (logs.foldl fileLog months).entries, OfMonth month.1 month.2 := by
  induction logs generalizing months with
  | nil => exact h
  | cons log rest ih => exact ih (ofMonth_of_mem_fileLog h)

theorem exists_of_mem_groupByMonth {logs : List DailyLog} {month : String × List DailyLog}
    (h : month ∈ (groupByMonth logs).entries) :
    ∃ filed, OfMonth month.1 filed ∧ month.2 = sortByDate filed := by
  obtain ⟨⟨key, filed⟩, hmem, rfl⟩ := List.mem_map.mp h
  have hempty : ∀ month ∈ (Mapping.empty : Mapping (List DailyLog)).entries,
      OfMonth month.1 month.2 := by
    intro month hmonth
    cases hmonth
  exact ⟨filed, ofMonth_of_mem_foldl_fileLog logs hempty _ hmem, rfl⟩

/-! ### Grouping again -/

theorem fileLog_of_entries_eq {months : Mapping (List DailyLog)} {key : String}
    {filed : List DailyLog} (h : months.entries = [(key, filed)]) {log : DailyLog}
    (hkey : log.date.monthKey = key) :
    (fileLog months log).entries = [(key, filed ++ [log])] := by
  simp [fileLog, hkey, Mapping.insert, Mapping.insertEntry, Mapping.get?, h]

theorem foldl_fileLog_of_entries_eq {key : String} {logs : List DailyLog}
    (hlogs : ∀ log ∈ logs, log.date.monthKey = key) {months : Mapping (List DailyLog)}
    {filed : List DailyLog} (h : months.entries = [(key, filed)]) :
    (logs.foldl fileLog months).entries = [(key, filed ++ logs)] := by
  induction logs generalizing months filed with
  | nil => simpa using h
  | cons log rest ih =>
    have hfirst := fileLog_of_entries_eq h (hlogs log List.mem_cons_self)
    have hrest := ih (fun other hother => hlogs other (List.mem_cons_of_mem _ hother)) hfirst
    rw [List.append_assoc, List.singleton_append] at hrest
    exact hrest

theorem OfMonth.values_groupByMonth {key : String} {logs : List DailyLog}
    (h : OfMonth key logs) : (groupByMonth logs).values = [sortByDate logs] := by
  cases logs with
  | nil => exact absurd rfl h.ne_nil
  | cons log rest =>
    have hfirst : (fileLog .empty log).entries = [(key, [log])] := by
      simp [fileLog, h.key log List.mem_cons_self, Mapping.insert, Mapping.insertEntry,
        Mapping.empty, Mapping.get?]
    have hall := foldl_fileLog_of_entries_eq
      (fun other hother => h.key other (List.mem_cons_of_mem _ hother)) hfirst
    simp only [groupByMonth, Mapping.values, Mapping.map, List.foldl_cons, hall]
    rfl

/-- **A month that is grouped again stays as it is.** -/
theorem values_groupByMonth_of_mem {logs : List DailyLog} {month : String × List DailyLog}
    (h : month ∈ (groupByMonth logs).entries) : (groupByMonth month.2).values = [month.2] := by
  obtain ⟨filed, hfiled, hsorted⟩ := exists_of_mem_groupByMonth h
  have hmonth : OfMonth month.1 month.2 := by
    rw [hsorted]
    refine ⟨?_, ?_⟩
    · intro hnil
      have hperm := perm_sortByDate filed
      rw [hnil] at hperm
      exact hfiled.ne_nil hperm.nil_eq.symm
    · intro log hlog
      exact hfiled.key log ((perm_sortByDate filed).mem_iff.mp hlog)
  rw [hmonth.values_groupByMonth, hsorted, sortByDate_sortByDate]

end Daybook
