/-
  Daybook/Proofs/Record/MonthPartition.lean
  =========================================
  **Months divide the logs.**  Each log stands in one group, with the logs of its
  year and month and no others, whatever sign and width the year is written with;
  within a group the dates rise, and logs of one date keep their order.  The groups
  stand in the order of their texts, which among years of four digits is that of time
  (`groupByMonth_isMonthPartition`).
-/
import Daybook.Proofs.Record.Grouping

namespace Daybook

/-! ### Groups of a list -/

/-- Whether groups are the months of some logs. -/
structure IsMonthPartition (groups : List (List DailyLog)) (logs : List DailyLog) : Prop where
  perm : groups.flatten.Perm logs
  ne_nil : ∀ group ∈ groups, group ≠ []
  /-- Logs stand in the same group just when they are of one month. -/
  together : ∀ (i j : Nat) (group group' : List DailyLog),
    groups[i]? = some group → groups[j]? = some group' → ∀ a ∈ group, ∀ b ∈ group',
      (i = j ↔ a.date.year = b.date.year ∧ a.date.month = b.date.month)
  sorted : ∀ group ∈ groups, group.Pairwise fun a b => a.date ≤ b.date
  /-- The logs of one date stand in the order in which they came. -/
  stable : ∀ group ∈ groups, ∀ log ∈ group,
    (group.filter fun other => other.date = log.date) =
      logs.filter fun other => other.date = log.date
  chronological : ∀ (i j : Nat) (group group' : List DailyLog),
    groups[i]? = some group → groups[j]? = some group' → i < j → ∀ a ∈ group, ∀ b ∈ group',
      a.date.HasFourDigitYear → b.date.HasFourDigitYear → a.date < b.date

/-! ### The groups of months -/

section

variable {logs : List DailyLog}

theorem exists_key_of_mem_values {group : List DailyLog} (h : group ∈ (groupByMonth logs).values) :
    ∃ key, (key, group) ∈ (groupByMonth logs).entries := by
  obtain ⟨⟨key, _⟩, hmem, rfl⟩ := List.mem_map.mp h
  exact ⟨key, hmem⟩

theorem exists_key_of_getElem? {i : Nat} {group : List DailyLog}
    (h : (groupByMonth logs).values[i]? = some group) :
    ∃ key, (groupByMonth logs).entries[i]? = some (key, group) := by
  unfold Mapping.values at h
  rw [List.getElem?_map, Option.map_eq_some_iff] at h
  obtain ⟨⟨key, _⟩, hentry, rfl⟩ := h
  exact ⟨key, hentry⟩

theorem monthKey_of_mem_group {key : String} {group : List DailyLog}
    (h : (key, group) ∈ (groupByMonth logs).entries) {log : DailyLog} (hlog : log ∈ group) :
    log.date.monthKey = key := by
  obtain ⟨-, rfl⟩ := mem_groupByMonth.mp h
  exact (mem_ofMonth.mp hlog).2

/-- The logs of one date in a group are all that there are. -/
theorem filter_date_group {key : String} {group : List DailyLog}
    (h : (key, group) ∈ (groupByMonth logs).entries) {log : DailyLog} (hlog : log ∈ group) :
    (group.filter fun other => other.date = log.date) =
      logs.filter fun other => other.date = log.date := by
  have hkey := monthKey_of_mem_group h hlog
  obtain ⟨-, rfl⟩ := mem_groupByMonth.mp h
  unfold ofMonth
  rw [List.filter_filter, ← filter_date_sortByDate]
  apply List.filter_congr
  intro other _
  by_cases hdate : other.date = log.date
  · simp [hdate, hkey]
  · simp [hdate]

theorem groupByMonth_together {i j : Nat} {group group' : List DailyLog}
    (hi : (groupByMonth logs).values[i]? = some group)
    (hj : (groupByMonth logs).values[j]? = some group') {a b : DailyLog} (ha : a ∈ group)
    (hb : b ∈ group') :
    i = j ↔ a.date.year = b.date.year ∧ a.date.month = b.date.month := by
  rw [← Date.monthNumber_eq_iff, ← Date.monthKey_eq_iff]
  obtain ⟨key, hentry⟩ := exists_key_of_getElem? hi
  obtain ⟨key', hentry'⟩ := exists_key_of_getElem? hj
  rw [monthKey_of_mem_group (List.mem_of_getElem? hentry) ha,
    monthKey_of_mem_group (List.mem_of_getElem? hentry') hb]
  constructor
  · rintro rfl
    exact (Prod.mk.inj (Option.some.inj (hentry.symm.trans hentry'))).1
  · intro hkey
    exact Mapping.index_eq_of_key_eq hentry hentry' hkey

theorem groupByMonth_chronological {i j : Nat} {group group' : List DailyLog}
    (hi : (groupByMonth logs).values[i]? = some group)
    (hj : (groupByMonth logs).values[j]? = some group') (hij : i < j) {a b : DailyLog}
    (ha : a ∈ group) (hb : b ∈ group') (hfour : a.date.HasFourDigitYear)
    (hfour' : b.date.HasFourDigitYear) : a.date < b.date := by
  obtain ⟨key, hentry⟩ := exists_key_of_getElem? hi
  obtain ⟨key', hentry'⟩ := exists_key_of_getElem? hj
  have hkeys : key < key' := Mapping.key_lt_of_getElem? hentry hentry' hij
  apply Date.lt_of_monthNumber_lt
  apply Date.monthNumber_lt_of_monthKey_lt hfour hfour'
  rw [monthKey_of_mem_group (List.mem_of_getElem? hentry) ha,
    monthKey_of_mem_group (List.mem_of_getElem? hentry') hb]
  exact hkeys

end

/-- **Grouping by month divides the logs into their months.** -/
theorem groupByMonth_isMonthPartition (logs : List DailyLog) :
    IsMonthPartition (groupByMonth logs).values logs where
  perm := perm_groupByMonth logs
  ne_nil := by
    intro group hgroup
    obtain ⟨key, hmem⟩ := exists_key_of_mem_values hgroup
    obtain ⟨⟨log, hlog, hkey⟩, rfl⟩ := mem_groupByMonth.mp hmem
    apply List.ne_nil_of_mem
    exact mem_ofMonth.mpr ⟨(perm_sortByDate logs).mem_iff.mpr hlog, hkey⟩
  together := by
    intro i j group group' hi hj a ha b hb
    exact groupByMonth_together hi hj ha hb
  sorted := by
    intro group hgroup
    obtain ⟨key, hmem⟩ := exists_key_of_mem_values hgroup
    obtain ⟨-, rfl⟩ := mem_groupByMonth.mp hmem
    exact (pairwise_sortByDate logs).filter _
  stable := by
    intro group hgroup log hlog
    obtain ⟨key, hmem⟩ := exists_key_of_mem_values hgroup
    exact filter_date_group hmem hlog
  chronological := by
    intro i j group group' hi hj hij a ha b hb hfour hfour'
    exact groupByMonth_chronological hi hj hij ha hb hfour hfour'

/-- A sign stands before the digits, so the year 10000 and the year before 0 come first. -/
example :
    (groupByMonth [
      { date := { year := 2025, month := 2, day := 1 }, line := 1 },
      { date := { year := -1, month := 12, day := 31 }, line := 2 },
      { date := { year := 10000, month := 1, day := 1 }, line := 3 },
      { date := { year := 2025, month := 1, day := 31 }, line := 4 },
      { date := { year := -1, month := 12, day := 31 }, line := 5 },
      { date := { year := -1, month := 12, day := 2 }, line := 6 }]).values.map
        (List.map DailyLog.line) = [[3], [6, 2, 5], [4], [1]] := by
  cbv

end Daybook
