/-
  Daybook/Proofs/Conversion/Sleep.lean
  ====================================
  **Closing a day with sleep.**  A conversion adds at most one activity to a
  scanned day (`records_eq`).  It adds one just when it links days, the day ends
  with something that is not sleep, and the day after it opened with a wake line
  (`isSome_nightSleep?_iff`); the sleep starts where the day ended, so the day
  stays a chain (`isChainFrom_closedBy`).
-/
import Daybook.Conversion.Converter
import Daybook.Proofs.Conversion.Linking
import Daybook.Proofs.Record.Chain
import Daybook.Proofs.Scan.Dates

namespace Daybook

namespace Converter

/-! ### The sleep of a day -/

/-- The sleep that a conversion adds to a day. -/
def nightSleep? (c : Converter) (days : List ScannedDay) (log : DailyLog) : Option Activity :=
  if c.linksSleep then closingSleep? c.table days log else none

/-- **The records of scanned days are the days, each closed with its sleep.** -/
theorem records_eq (c : Converter) (setup : ScanSetup) (lines : List String) :
    let days := (setup.scan lines).1
    c.records days = days.map fun day => day.log.closedBy (c.nightSleep? days day.log) := by
  intro days
  unfold records nightSleep?
  by_cases hlinks : c.linksSleep = true
  · have hdates : (days.map fun day => day.log.date).Nodup := nodup_dates_scan setup lines
    simp only [hlinks, if_true, linkSleep_eq hdates, linkedBy, List.map_map]
    rfl
  · simp [hlinks]

theorem exists_of_nightSleep? {c : Converter} {days : List ScannedDay} {log : DailyLog}
    {sleep : Activity} (h : c.nightSleep? days log = some sleep) :
    ∃ last, log.activities.getLast? = some last ∧ sleep.start = last.finish ∧
      sleep.path = c.table.sleepPath ∧ sleep.IsTimed := by
  unfold nightSleep? at h
  split at h
  · obtain ⟨last, next, wake, hlast, -, -, rfl⟩ := closingSleep?_eq_some_iff.mp h
    exact ⟨last, hlast, rfl, rfl, rfl⟩
  · cases h

/-- **When a day is closed with sleep.** -/
theorem isSome_nightSleep?_iff {c : Converter} {days : List ScannedDay} {log : DailyLog} :
    (c.nightSleep? days log).isSome = true ↔
      c.linksSleep = true ∧ (∃ last ∈ log.activities.getLast?, last.path ≠ c.table.sleepPath) ∧
        ∃ next ∈ days, log.date.succ? = some next.log.date ∧ next.wake.isSome = true := by
  rw [← isSome_wakeAfter?_iff]
  unfold nightSleep?
  constructor
  · intro h
    split at h
    next hlinks =>
      rcases Option.isSome_iff_exists.mp h with ⟨sleep, hsleep⟩
      obtain ⟨last, next, wake, hlast, hwake, hpath, -⟩ := closingSleep?_eq_some_iff.mp hsleep
      exact ⟨hlinks, ⟨last, hlast, hpath⟩, by simp [hwake]⟩
    next => cases h
  · rintro ⟨hlinks, ⟨last, hlast, hpath⟩, hwake⟩
    rcases Option.isSome_iff_exists.mp hwake with ⟨⟨next, wake⟩, hwake⟩
    rw [if_pos hlinks]
    exact Option.isSome_iff_exists.mpr
      ⟨_, closingSleep?_eq_some_iff.mpr ⟨last, next, wake, hlast, hwake, hpath, rfl⟩⟩

/-! ### Chains -/

theorem isChainFrom_closedBy {c : Converter} {days : List ScannedDay} {log : DailyLog}
    {start : TimeOfDay} (h : IsChainFrom start log.activities) :
    IsChainFrom start (log.closedBy (c.nightSleep? days log)).activities := by
  cases hsleep : c.nightSleep? days log with
  | none =>
    rw [DailyLog.closedBy_none]
    exact h
  | some sleep =>
    obtain ⟨last, hlast, hstart, -⟩ := exists_of_nightSleep? hsleep
    have hend : sleep.start = chainEnd start log.activities := by
      simp [chainEnd, hlast, hstart]
    exact isChainFrom_append_singleton.mpr ⟨h, hend⟩

theorem isTimed_of_mem_closedBy {c : Converter} {days : List ScannedDay} {log : DailyLog}
    (h : ∀ a ∈ log.activities, a.IsTimed) {a : Activity}
    (ha : a ∈ (log.closedBy (c.nightSleep? days log)).activities) : a.IsTimed := by
  rcases List.mem_append.mp ha with ha | ha
  · exact h a ha
  · obtain ⟨-, -, -, -, htimed⟩ := exists_of_nightSleep? (Option.mem_toList.mp ha)
    exact htimed

end Converter

end Daybook
