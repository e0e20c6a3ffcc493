/-
  Daybook/Proofs/Conversion/TotalTime.lean
  ========================================
  **No time is made or lost.**  The activities of a converted day follow on one
  another, the sleep that closes it included, so its total is the time from the start
  of the first to the end of the last, but for whole days (`convert_totalsFrom`).
-/
import Daybook.Proofs.Conversion.Chain
import Daybook.Proofs.Record.TotalTime

namespace Daybook.Converter

open Daybook.Text

variable {c : Converter} {name : String} {bytes : ByteArray} {run : Diagnostics} {outcome : Outcome}

/-- **The total of a converted day is the time that it spans**, but for whole days, and is counted
    without leaving 64 bits. -/
theorem convert_totalsFrom (h : (c.convert name bytes run).2 = .ok outcome) :
    ∀ log ∈ outcome.logs, ∀ first last, log.activities.head? = some first →
      log.activities.getLast? = some last → log.activities.length < 100000000000000 →
        log.TotalsFrom first.start last.finish := by
  intro log hlog first last hfirst hlast hlength
  rw [logs_eq_map_record h] at hlog
  rcases List.mem_map.mp hlog with ⟨o, ho, rfl⟩
  have hchain := isChainFrom_record ho
  have hstart : first.start = firstStart c.table c.dayStart o.place.block := by
    rcases List.head?_eq_some_iff.mp hfirst with ⟨rest, hactivities⟩
    rw [hactivities] at hchain
    exact hchain.1
  have htotals := hchain.totalsFrom (fun a => isTimed_of_mem_record ho) hlength
  have hend : chainEnd (firstStart c.table c.dayStart o.place.block)
      (c.record name (readLines bytes).lines o).activities = last.finish := by
    unfold chainEnd
    rw [hlast]
    rfl
  rw [hend, ← hstart] at htotals
  exact htotals

/-- A day that starts in a leap second, goes past midnight twice and is closed with sleep. -/
theorem convert_totalsFrom_leap_second :
    let c : Converter := {
      table := {}, validation := {}, scope := .month,
      dayStart := { hour := 23, minute := 59, second := 60, nanosecond := 500000000 },
      fallbackYear := 2025, linksSleep := true }
    let bytes := "2025_01_15\n0030 late\n2300 x\n01_16\n0630wake\n".toUTF8
    ∃ outcome log first last, (c.convert "log.txt" bytes .quiet).2 = .ok outcome ∧
      log ∈ outcome.logs ∧ log.activities.head? = some first ∧
      log.activities.getLast? = some last ∧ log.activities.length = 3 ∧
      log.TotalsFrom first.start last.finish ∧ log.totalSeconds = 109801 ∧
      intervalSeconds first.start last.finish = 23401 := by
  intro c bytes
  have houtcome : (c.convert "log.txt" bytes .quiet).2 = .ok (c.converted "log.txt" bytes) :=
    convert_of_complete (by decide +kernel) .quiet
  have hlog : ∃ log ∈ (c.converted "log.txt" bytes).logs, log.activities.length = 3 ∧
      log.totalSeconds = 109801 ∧ ∃ first ∈ log.activities.head?,
        ∃ last ∈ log.activities.getLast?, intervalSeconds first.start last.finish = 23401 := by
    decide +kernel
  rcases hlog with ⟨log, hmem, hlength, htotal, first, hfirst, last, hlast, hinterval⟩
  exact ⟨_, log, first, last, houtcome, hmem, hfirst, hlast, hlength,
    convert_totalsFrom houtcome log hmem first last hfirst hlast (by omega), htotal, hinterval⟩

end Daybook.Converter
