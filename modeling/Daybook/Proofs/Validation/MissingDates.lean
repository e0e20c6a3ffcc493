/-
  Daybook/Proofs/Validation/MissingDates.lean
  ===========================================
  **Every missing date is reported once.**  The dates from the earliest log to the
  latest are those that have a log and those that are missing; the gaps between
  neighbours in order are the latter, each once and in order, between the logs that
  stand closest to it (`areMissing_gapsOf`).  So a batch reports just these, each with
  the dates around it, however its logs are ordered and repeated
  (`checkBatchIn_missingDates`).
-/
import Daybook.Proofs.Validation.Batch
import Daybook.Proofs.Validation.Gaps
import Daybook.Proofs.Validation.Run
import Mathlib.Data.List.Dedup
import Mathlib.Order.Bounds.Basic

namespace Daybook

/-! ### Missing dates -/

/-- Whether a date without a log lies between dates with one. -/
structure Missing (dates : List Date) (date : Date) : Prop where
  noLog : date ∉ dates
  earlier : ∃ d ∈ dates, d < date
  later : ∃ d ∈ dates, date < d

/-- **The dates from the earliest to the latest** are those with a log and the missing ones. -/
theorem length_of_missing {dates missing : List Date} (hascending : missing.Pairwise (· < ·))
    (hmissing : ∀ date, date ∈ missing ↔ Missing dates date) {first last : Date}
    (hfirst : first ∈ dates) (hlast : last ∈ dates)
    (hbounds : ∀ d ∈ dates, first ≤ d ∧ d ≤ last) :
    (missing.length : Int) = last.dayNumber - first.dayNumber + 1 - dates.dedup.length := by
  have hle := Date.dayNumber_le_iff.mpr (hbounds first hfirst).2
  obtain ⟨n, hn⟩ : ∃ n : Nat, last.dayNumber = first.dayNumber + n :=
    ⟨(last.dayNumber - first.dayNumber).toNat, by omega⟩
  have hlength := Date.length_following hn
  have hcalendar : (first :: Date.following n first).Nodup := by
    refine (List.pairwise_cons.mpr ⟨?_, Date.pairwise_following n first⟩).imp ne_of_lt
    intro d hd
    exact Date.dayNumber_lt_iff.mp (Date.mem_following.mp hd).1
  have hparts : (missing ++ dates.dedup).Nodup := by
    refine List.nodup_append'.mpr ⟨hascending.imp ne_of_lt, dates.nodup_dedup, ?_⟩
    intro d hd hdates
    exact ((hmissing d).mp hd).noLog (List.mem_dedup.mp hdates)
  have hsame : (missing ++ dates.dedup).Perm (first :: Date.following n first) := by
    refine (List.perm_ext_iff_of_nodup hparts hcalendar).mpr fun d => ?_
    rw [List.mem_append, hmissing, List.mem_dedup, List.mem_cons, Date.mem_following, ← hn,
      Date.dayNumber_lt_iff, Date.dayNumber_le_iff]
    constructor
    · rintro (⟨-, ⟨e, he, hearlier⟩, l, hl, hlater⟩ | hd)
      · exact .inr ⟨lt_of_le_of_lt (hbounds e he).1 hearlier,
          (lt_of_lt_of_le hlater (hbounds l hl).2).le⟩
      · rcases eq_or_lt_of_le (hbounds d hd).1 with heq | hlt
        · exact .inl heq.symm
        · exact .inr ⟨hlt, (hbounds d hd).2⟩
    · rintro (rfl | ⟨hlt, hle⟩)
      · exact .inr hfirst
      · by_cases hd : d ∈ dates
        · exact .inr hd
        · have hne : d ≠ last := fun heq => hd (heq ▸ hlast)
          exact .inl ⟨hd, ⟨first, hfirst, hlt⟩, last, hlast, lt_of_le_of_ne hle hne⟩
  have htotal := hsame.length_eq
  rw [List.length_append, List.length_cons, hlength] at htotal
  omega

/-- Whether gaps are the missing dates of logs, in order and each once, with the logs around
    them. -/
structure AreMissing (logs : List DailyLog) (gaps : List Gap) : Prop where
  ascending : gaps.Pairwise fun a b => a.date < b.date
  mem_iff : ∀ date, date ∈ gaps.map Gap.date ↔ Missing (logs.map DailyLog.date) date
  before_mem : ∀ gap ∈ gaps, gap.before ∈ logs
  before : ∀ gap ∈ gaps,
    IsGreatest {d | d ∈ logs.map DailyLog.date ∧ d < gap.date} gap.before.date
  after_mem : ∀ gap ∈ gaps, gap.after ∈ logs
  after : ∀ gap ∈ gaps, IsLeast {d | d ∈ logs.map DailyLog.date ∧ gap.date < d} gap.after.date
  /-- As many as there are days from the earliest log to the latest, less the dates with a log. -/
  length : ∀ first ∈ logs.map DailyLog.date, ∀ last ∈ logs.map DailyLog.date,
    (∀ d ∈ logs.map DailyLog.date, first ≤ d ∧ d ≤ last) →
      (gaps.length : Int) =
        last.dayNumber - first.dayNumber + 1 - (logs.map DailyLog.date).dedup.length

section

variable {logs : List DailyLog} {before after : DailyLog} {date : Date}

theorem Adjacent.isGreatest (h : Adjacent logs before after) (hbefore : before.date < date)
    (hafter : date < after.date) :
    IsGreatest {d | d ∈ logs.map DailyLog.date ∧ d < date} before.date := by
  refine ⟨⟨List.mem_map_of_mem h.before_mem, hbefore⟩, ?_⟩
  rintro d ⟨hd, hlt⟩
  obtain ⟨log, hlog, rfl⟩ := List.mem_map.mp hd
  rcases h.outside log hlog with hle | hle
  · exact hle
  · exact absurd (lt_trans hafter (lt_of_le_of_lt hle hlt)) (lt_irrefl date)

theorem Adjacent.isLeast (h : Adjacent logs before after) (hbefore : before.date < date)
    (hafter : date < after.date) :
    IsLeast {d | d ∈ logs.map DailyLog.date ∧ date < d} after.date := by
  refine ⟨⟨List.mem_map_of_mem h.after_mem, hafter⟩, ?_⟩
  rintro d ⟨hd, hlt⟩
  obtain ⟨log, hlog, rfl⟩ := List.mem_map.mp hd
  rcases h.outside log hlog with hle | hle
  · exact absurd (lt_trans hlt (lt_of_le_of_lt hle hbefore)) (lt_irrefl date)
  · exact hle

end

section

variable {logs : List DailyLog}

theorem adjacent_of_mem_gapsOf {gap : Gap} (h : gap ∈ gapsOf (neighbours (sortByDate logs))) :
    Adjacent logs gap.before gap.after ∧ gap.before.date < gap.date ∧
      gap.date < gap.after.date := by
  obtain ⟨hpair, hbetween⟩ := mem_gapsOf.mp h
  exact ⟨adjacent_of_mem_neighbours_sortByDate hpair, hbetween⟩

theorem mem_date_gapsOf {date : Date} :
    date ∈ (gapsOf (neighbours (sortByDate logs))).map Gap.date ↔
      Missing (logs.map DailyLog.date) date := by
  constructor
  · intro hdate
    obtain ⟨gap, hgap, rfl⟩ := List.mem_map.mp hdate
    obtain ⟨hadjacent, hbefore, hafter⟩ := adjacent_of_mem_gapsOf hgap
    refine ⟨?_, ⟨_, List.mem_map_of_mem hadjacent.before_mem, hbefore⟩,
      ⟨_, List.mem_map_of_mem hadjacent.after_mem, hafter⟩⟩
    intro hlogged
    obtain ⟨log, hlog, hsame⟩ := List.mem_map.mp hlogged
    exact hadjacent.missing hbefore hafter log hlog hsame
  · rintro ⟨hnoLog, ⟨_, hd, hlt⟩, _, hd', hgt⟩
    obtain ⟨earlier, hearlier, rfl⟩ := List.mem_map.mp hd
    obtain ⟨later, hlater, rfl⟩ := List.mem_map.mp hd'
    have hmissing : ∀ log ∈ logs, log.date ≠ date := by
      rintro log hlog rfl
      exact hnoLog (List.mem_map_of_mem hlog)
    obtain ⟨before, after, hpair, hbetween⟩ :=
      exists_mem_neighbours_sortByDate hmissing ⟨earlier, hearlier, hlt⟩ ⟨later, hlater, hgt⟩
    exact List.mem_map.mpr ⟨⟨before, after, date⟩, mem_gapsOf.mpr ⟨hpair, hbetween⟩, rfl⟩

end

/-- **The gaps between neighbours are the missing dates.** -/
theorem areMissing_gapsOf (logs : List DailyLog) :
    AreMissing logs (gapsOf (neighbours (sortByDate logs))) := by
  have hascending := pairwise_gapsOf (pairwise_neighbours (pairwise_sortByDate logs))
  constructor
  case ascending => exact hascending
  case mem_iff => exact fun date => mem_date_gapsOf
  case before_mem => exact fun gap hgap => (adjacent_of_mem_gapsOf hgap).1.before_mem
  case before =>
    intro gap hgap
    obtain ⟨hadjacent, hbefore, hafter⟩ := adjacent_of_mem_gapsOf hgap
    exact hadjacent.isGreatest hbefore hafter
  case after_mem => exact fun gap hgap => (adjacent_of_mem_gapsOf hgap).1.after_mem
  case after =>
    intro gap hgap
    obtain ⟨hadjacent, hbefore, hafter⟩ := adjacent_of_mem_gapsOf hgap
    exact hadjacent.isLeast hbefore hafter
  case length =>
    intro first hfirst last hlast hbounds
    rw [← List.length_map Gap.date]
    exact length_of_missing (List.pairwise_map.mpr hascending) (fun date => mem_date_gapsOf) hfirst
      hlast hbounds

namespace Validator

theorem withCode_missingDate_checkBatch {v : Validator} (hmode : v.config.mode ≠ .none)
    (logs : List DailyLog) :
    withCode .missingDate (v.checkBatch logs) =
      (gapsOf (neighbours (sortByDate logs))).map v.gapFinding := by
  have hall : withCode .missingDate (v.checkContinuity (sortByDate logs)) =
      v.checkContinuity (sortByDate logs) := by
    rw [withCode_of_code (fun _ hd => code_of_mem_checkContinuity hd), if_pos rfl]
  rw [← flatMap_checkPair, ← checkContinuity_eq]
  cases h : v.config.mode with
  | none => exact absurd h hmode
  | continuity =>
    unfold checkBatch
    rw [h]
    exact hall
  | full =>
    have hcontinuity := v.checkBatch_inMode_continuity logs
    rw [inMode_of_eq h] at hcontinuity
    exact hcontinuity.symm

/-- **Validation reports every missing date once.**  Whatever a run holds, and whatever order the
    logs of a batch come in, with dates repeated or not, the missing dates that are reported are
    those without a log that lie between the earliest log and the latest, in ascending order, each
    with the dates of the logs closest to it; looking for them comes to an end between any two
    logs. -/
theorem checkBatchIn_missingDates (v : Validator) (hmode : v.config.mode ≠ .none)
    (run : Diagnostics) (logs : List DailyLog) :
    (∃ (new : List Diagnostic) (gaps : List Gap),
        (v.checkBatchIn run logs).1.entries = run.entries ++ new ∧
        withCode .missingDate new = gaps.map v.gapFinding ∧
        AreMissing logs gaps) ∧
      ∀ before after : DailyLog, ∃ dates, Date.Walk after.date before.date.succ? dates ∧
        v.checkPair before after = dates.map fun date => v.gapFinding { before, after, date } := by
  refine ⟨⟨v.checkBatch logs, gapsOf (neighbours (sortByDate logs)), ?_,
    withCode_missingDate_checkBatch hmode logs, areMissing_gapsOf logs⟩, ?_⟩
  · rw [checkBatchIn_eq, Diagnostics.entries_emitAll]
  · intro before after
    exact ⟨_, Date.walk_strictlyBetween before.date after.date, v.checkPair_eq before after⟩

/-- A leap day is missing, the later log comes first, and again. -/
theorem checkBatchIn_missingDates_leap_day :
    let v : Validator := { config := {}, sleepPath := "sleep_night", file := "log.txt" }
    let february : DailyLog := { date := { year := 2024, month := 2, day := 27 }, line := 4 }
    let march : DailyLog := { date := { year := 2024, month := 3, day := 2 }, line := 9 }
    let logs := [march, february, march]
    let run := Diagnostics.quiet
    let finding : Diagnostic := {
      severity := .error, code := .missingDate, line := 9
      message := "no daily log for 2024-02-29 (between 2024-02-27 and 2024-03-02)"
      span := some {
        file := "log.txt", lineStart := 4, lineEnd := 9, columnStart := 1, columnEnd := 1 } }
    v.config.mode ≠ .none ∧
      ∃ gaps : List Gap,
        withCode .missingDate (v.checkBatchIn run logs).1.entries = gaps.map v.gapFinding ∧
        gaps.length = 3 ∧ finding ∈ (v.checkBatchIn run logs).1.entries := by
  intro v february march logs run finding
  have hmode : v.config.mode ≠ .none := by decide
  obtain ⟨⟨new, gaps, hentries, hfindings, hgaps⟩, -⟩ := v.checkBatchIn_missingDates hmode run logs
  rw [← hentries.trans (List.nil_append new)] at hfindings
  refine ⟨hmode, gaps, hfindings, ?count, ?leapDay⟩
  case count =>
    have hlength := hgaps.length february.date (by decide) march.date (by decide) (by decide)
    have hdays : march.date.dayNumber - february.date.dayNumber + 1 -
        ((logs.map DailyLog.date).dedup.length : Int) = 3 := by decide +kernel
    rw [hdays] at hlength
    omega
  case leapDay =>
    let leapDay : Date := { year := 2024, month := 2, day := 29 }
    have hmissing : Missing (logs.map DailyLog.date) leapDay :=
      ⟨by decide, ⟨february.date, by decide, by decide⟩, march.date, by decide, by decide⟩
    obtain ⟨⟨before, after, date⟩, hgap, hdate⟩ := List.mem_map.mp ((hgaps.mem_iff _).mpr hmissing)
    obtain rfl : date = leapDay := hdate
    -- only one of the two logs lies before the leap day, and only the other one after it
    obtain rfl : before = february := by
      have hlt : before.date < leapDay := (hgaps.before _ hgap).1.2
      have hmem : before ∈ logs := hgaps.before_mem _ hgap
      simp only [logs, List.mem_cons, List.not_mem_nil, or_false] at hmem
      rcases hmem with rfl | rfl | rfl
      · exact absurd hlt (by decide)
      · rfl
      · exact absurd hlt (by decide)
    obtain rfl : after = march := by
      have hlt : leapDay < after.date := (hgaps.after _ hgap).1.2
      have hmem : after ∈ logs := hgaps.after_mem _ hgap
      simp only [logs, List.mem_cons, List.not_mem_nil, or_false] at hmem
      rcases hmem with rfl | rfl | rfl
      · rfl
      · exact absurd hlt (by decide)
      · rfl
    have hfinding : v.gapFinding ⟨february, march, leapDay⟩ = finding := by decide +kernel
    have hmem : finding ∈ withCode .missingDate (v.checkBatchIn run logs).1.entries := by
      rw [hfindings, ← hfinding]
      exact List.mem_map_of_mem hgap
    exact (List.mem_filter.mp hmem).1

end Validator

end Daybook
