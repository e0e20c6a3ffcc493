/-
  Daybook/Proofs/Record/Grouping.lean
  ===================================
  **A group is a month of the sorted logs.**  Under the text of a month stand the
  logs of that month and no others, so grouping sorted logs and sorting grouped
  ones is the same (`values_groupByMonth`), and the texts stand in order
  (`entries_groupByMonth`).  Every log belongs to one group, and
  with it whatever belongs to the month of a log (`perm_flatMap_keys`).  Of logs
  with different dates the groups do not depend on the order (`groupByMonth_congr`).
-/
import Daybook.Proofs.Calendar.MonthNumber
import Daybook.Proofs.Record.MonthGroups
import Mathlib.Data.List.Dedup
import Mathlib.Data.List.Sort

namespace Daybook

def ofMonth (key : String) (logs : List DailyLog) : List DailyLog :=
  logs.filter fun log => log.date.monthKey == key

theorem mem_ofMonth {key : String} {logs : List DailyLog} {log : DailyLog} :
    log ∈ ofMonth key logs ↔ log ∈ logs ∧ log.date.monthKey = key := by
  rw [ofMonth, List.mem_filter, beq_iff_eq]

/-! ### What is filed -/

theorem getD_get?_foldl_fileLog (logs : List DailyLog) (months : Mapping (List DailyLog))
    (key : String) :
    ((logs.foldl fileLog months).get? key).getD [] =
      (months.get? key).getD [] ++ ofMonth key logs := by
  induction logs generalizing months with
  | nil => simp [ofMonth]
  | cons log rest ih =>
    rw [List.foldl_cons, ih]
    unfold fileLog ofMonth
    dsimp only
    rw [Mapping.get?_insert]
    by_cases hkey : log.date.monthKey = key
    · rw [if_pos hkey.symm, List.filter_cons_of_pos (by simpa using hkey), hkey, Option.getD_some,
        List.append_assoc, List.singleton_append]
    · rw [if_neg (Ne.symm hkey), List.filter_cons_of_neg (by simpa using hkey)]

theorem mem_groupByMonth {logs : List DailyLog} {key : String} {group : List DailyLog} :
    (key, group) ∈ (groupByMonth logs).entries ↔
      (∃ log ∈ logs, log.date.monthKey = key) ∧ group = ofMonth key (sortByDate logs) := by
  have hfiled : ((logs.foldl fileLog .empty).get? key).getD [] = ofMonth key logs :=
    getD_get?_foldl_fileLog logs .empty key
  have hsorted : ofMonth key (sortByDate logs) = sortByDate (ofMonth key logs) :=
    filter_sortByDate _ logs
  rw [hsorted]
  constructor
  · intro h
    obtain ⟨⟨key', filed⟩, hmem, heq⟩ := List.mem_map.mp h
    obtain ⟨rfl, rfl⟩ := Prod.mk.inj heq
    rw [Mapping.get?_eq_some_of_mem hmem, Option.getD_some] at hfiled
    have hmonth : OfMonth key' filed :=
      @ofMonth_of_mem_foldl_fileLog logs .empty (by simp [Mapping.empty]) _ hmem
    obtain ⟨log, hlog⟩ := List.exists_mem_of_ne_nil _ hmonth.ne_nil
    rw [hfiled] at hlog
    exact ⟨⟨log, mem_ofMonth.mp hlog⟩, congrArg sortByDate hfiled⟩
  · rintro ⟨⟨log, hlog, hkey⟩, rfl⟩
    have hmem : log ∈ ofMonth key logs := mem_ofMonth.mpr ⟨hlog, hkey⟩
    cases hget : (logs.foldl fileLog .empty).get? key with
    | none =>
      rw [← hfiled, hget] at hmem
      cases hmem
    | some filed =>
      rw [hget, Option.getD_some] at hfiled
      rw [← hfiled]
      exact List.mem_map.mpr ⟨_, Mapping.mem_of_get?_eq_some hget, rfl⟩

/-- **A group is a month of the sorted logs.** -/
theorem values_groupByMonth (logs : List DailyLog) :
    (groupByMonth logs).values =
      (groupByMonth logs).keys.map fun key => ofMonth key (sortByDate logs) := by
  unfold Mapping.values Mapping.keys
  rw [List.map_map]
  apply List.map_congr_left
  intro entry hentry
  exact (mem_groupByMonth.mp hentry).2

theorem mem_keys_groupByMonth {logs : List DailyLog} {log : DailyLog} (h : log ∈ logs) :
    log.date.monthKey ∈ (groupByMonth logs).keys :=
  List.mem_map.mpr ⟨_, mem_groupByMonth.mpr ⟨⟨log, h, rfl⟩, rfl⟩, rfl⟩

/-! ### The months of logs -/

/-- The texts of the months of logs, each once and in order. -/
def monthTexts (logs : List DailyLog) : List String :=
  (logs.map fun log => log.date.monthKey).dedup.mergeSort fun a b => decide (a ≤ b)

theorem mem_monthTexts {logs : List DailyLog} {month : String} :
    month ∈ monthTexts logs ↔ ∃ log ∈ logs, log.date.monthKey = month := by
  rw [monthTexts, List.mem_mergeSort, List.mem_dedup, List.mem_map]

theorem pairwise_monthTexts (logs : List DailyLog) :
    (monthTexts logs).Pairwise fun a b => a < b := by
  have hsorted : (monthTexts logs).Pairwise fun a b => a ≤ b :=
    List.pairwise_mergeSort' (fun a b => a ≤ b) _
  have hnodup : (monthTexts logs).Nodup :=
    (List.mergeSort_perm _ _).nodup_iff.mpr (List.nodup_dedup _)
  refine (hsorted.and hnodup).imp ?_
  rintro a b ⟨hle, hne⟩
  exact lt_of_le_of_ne hle hne

theorem keys_groupByMonth (logs : List DailyLog) :
    (groupByMonth logs).keys = monthTexts logs := by
  have hkeys : (groupByMonth logs).keys.Pairwise fun a b => a < b :=
    List.pairwise_map.mpr ((groupByMonth logs).sorted.imp Mapping.KeyLT.lt)
  have hmem (month : String) : month ∈ (groupByMonth logs).keys ↔ month ∈ monthTexts logs := by
    rw [mem_monthTexts]
    constructor
    · intro h
      obtain ⟨⟨key, group⟩, hentry, rfl⟩ := List.mem_map.mp h
      exact (mem_groupByMonth.mp hentry).1
    · rintro ⟨log, hlog, rfl⟩
      exact mem_keys_groupByMonth hlog
  exact hkeys.eq_of_mem_iff (pairwise_monthTexts logs) hmem

/-- **The groups are the months in order**, each with its logs in the order of their dates. -/
theorem entries_groupByMonth (logs : List DailyLog) :
    (groupByMonth logs).entries =
      (monthTexts logs).map fun month => (month, sortByDate (ofMonth month logs)) := by
  rw [← keys_groupByMonth, Mapping.keys, List.map_map]
  conv => lhs; rw [← List.map_id (groupByMonth logs).entries]
  apply List.map_congr_left
  rintro ⟨key, group⟩ hentry
  rw [(mem_groupByMonth.mp hentry).2, ofMonth, filter_sortByDate]
  rfl

/-! ### Different months -/

/-- **What belongs to the months of logs is divided among the groups.** -/
theorem perm_flatMap_keys {logs : List DailyLog} {α β : Type} (keyOf : α → String)
    {items : List α} (hitems : ∀ item ∈ items, ∃ log ∈ logs, log.date.monthKey = keyOf item)
    (f : α → List β) :
    ((groupByMonth logs).keys.flatMap fun key =>
      (items.filter fun item => keyOf item == key).flatMap f).Perm (items.flatMap f) := by
  have hkeys : ∀ item ∈ items, keyOf item ∈ (groupByMonth logs).keys := by
    intro item hitem
    obtain ⟨log, hlog, hkey⟩ := hitems item hitem
    exact hkey ▸ mem_keys_groupByMonth hlog
  have hperm := (perm_flatMap_filter keyOf (Mapping.nodup_keys _) hkeys).flatMap_right f
  rw [List.flatMap_assoc] at hperm
  exact hperm

/-- **Logs of different dates are grouped alike**, whatever order they come in. -/
theorem groupByMonth_congr {logs logs' : List DailyLog} (hperm : logs.Perm logs')
    (hdates : (logs.map DailyLog.date).Nodup) : groupByMonth logs = groupByMonth logs' := by
  have hmonths : monthTexts logs = monthTexts logs' := by
    refine (pairwise_monthTexts logs).eq_of_mem_iff (pairwise_monthTexts logs') ?_
    intro month
    simp only [mem_monthTexts, hperm.mem_iff]
  apply Mapping.ext
  rw [entries_groupByMonth, entries_groupByMonth, hmonths]
  apply List.map_congr_left
  intro month _
  have hgroup : (ofMonth month logs).Perm (ofMonth month logs') := hperm.filter _
  have hnodup : ((ofMonth month logs).map DailyLog.date).Nodup :=
    hdates.sublist (List.filter_sublist.map _)
  rw [sortByDate_congr hgroup hnodup]

end Daybook
