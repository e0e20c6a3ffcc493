/-
  Daybook/Proofs/Validation/DayCount.lean
  =======================================
  **Months that are not complete.**  The dates of a month that have a log are as
  many as the month is long exactly when each of its dates has one
  (`daysLogged_eq_monthLength_iff`).  So counting reports each month that has logs
  and lacks some date, once and at its earliest log, and no other month
  (`checkBatchIn_dayCounts`); the last month of all is never reported, for there is
  no month after it to count up to (`exists_unreported_month`).
-/
import Daybook.Proofs.Calendar.MonthDays
import Daybook.Proofs.Validation.Scopes
import Daybook.Proofs.Validation.Batch
import Daybook.Proofs.Validation.Run

namespace Daybook

open Daybook.Text

/-! ### Months with logs -/

/-- Whether a month has a log and also a date without one. -/
structure IncompleteMonth (logs : List DailyLog) (month : Int) : Prop where
  logged : ∃ log ∈ logs, log.date.monthNumber = month
  lacking : ∃ date : Date, date.monthNumber = month ∧ ∀ log ∈ logs, log.date ≠ date

/-- Whether a log is the earliest of its month, and the first of several that have its date. -/
structure OpensMonth (logs : List DailyLog) (first : DailyLog) : Prop where
  least : ∀ log ∈ logs, log.date.monthNumber = first.date.monthNumber → first.date ≤ log.date
  first : logs.find? (fun log => log.date = first.date) = some first

theorem OpensMonth.mem {logs : List DailyLog} {first : DailyLog} (h : OpensMonth logs first) :
    first ∈ logs :=
  List.mem_of_find?_eq_some h.first

/-- The number of the last month that has dates. -/
def Date.lastMonth : Int := 12 * lastYear + 12

theorem Date.monthNumber_eq_lastMonth_iff {d : Date} :
    d.monthNumber = lastMonth ↔ d.year = lastYear ∧ d.month = 12 := by
  obtain ⟨-, -, hmonth, hmonth', -, -⟩ := d.valid
  unfold monthNumber lastMonth
  omega

section

variable {logs rest : List DailyLog} {log first : DailyLog}

/-- Of logs in order, the first one opens its month, and the others open theirs as before. -/
theorem opensMonth_cons_iff (hlog : ∀ other ∈ rest, log.date ≤ other.date) :
    OpensMonth (log :: rest) first ↔
      first = log ∨ OpensMonth rest first ∧ log.date.monthNumber ≠ first.date.monthNumber := by
  constructor
  · intro h
    have hfound := h.first
    by_cases hdate : log.date = first.date
    · rw [List.find?_cons_of_pos (by simpa using hdate)] at hfound
      exact .inl (Option.some.inj hfound).symm
    · rw [List.find?_cons_of_neg (by simpa using hdate)] at hfound
      refine .inr ⟨⟨fun other hmem => h.least other (List.mem_cons_of_mem _ hmem), hfound⟩, ?_⟩
      intro hsame
      have hle := h.least log List.mem_cons_self hsame
      exact hdate (le_antisymm (hlog first (List.mem_of_find?_eq_some hfound)) hle)
  · rintro (rfl | ⟨h, hmonth⟩)
    · refine ⟨?_, List.find?_cons_of_pos (by simp)⟩
      intro other hmem _
      rcases List.mem_cons.mp hmem with rfl | hmem
      · exact le_refl _
      · exact hlog other hmem
    · have hdate : log.date ≠ first.date := fun heq => hmonth (congrArg _ heq)
      refine ⟨?_, ?_⟩
      · intro other hmem hsame
        rcases List.mem_cons.mp hmem with rfl | hmem
        · exact absurd hsame hmonth
        · exact h.least other hmem hsame
      · rw [List.find?_cons_of_neg (by simpa using hdate), h.first]

theorem opensMonth_sortByDate_iff : OpensMonth (sortByDate logs) first ↔ OpensMonth logs first := by
  have hmem {log : DailyLog} : log ∈ sortByDate logs ↔ log ∈ logs := (perm_sortByDate logs).mem_iff
  constructor
  · intro h
    refine ⟨fun log hlog => h.least log (hmem.mpr hlog), ?_⟩
    rw [← find?_sortByDate, h.first]
  · intro h
    refine ⟨fun log hlog => h.least log (hmem.mp hlog), ?_⟩
    rw [find?_sortByDate, h.first]

end

namespace Validator

theorem sameMonth_iff {a b : Date} : sameMonth a b = true ↔ a.monthNumber = b.monthNumber := by
  rw [Date.monthNumber_eq_iff, sameMonth, Bool.and_eq_true, beq_iff_eq, beq_iff_eq]

theorem not_sameMonth_iff {a b : Date} :
    (!sameMonth a b) = true ↔ a.monthNumber ≠ b.monthNumber := by
  rw [Bool.not_eq_true', ← Bool.not_eq_true, sameMonth_iff]

/-- The logs that start months are those that open them. -/
theorem mem_monthStarts_iff {logs : List DailyLog}
    (hsorted : logs.Pairwise fun a b => a.date ≤ b.date) {first : DailyLog} :
    first ∈ monthStarts logs ↔ OpensMonth logs first := by
  induction logs with
  | nil =>
    constructor
    · intro hmem
      cases hmem
    · intro h
      cases h.mem
  | cons log rest ih =>
    obtain ⟨hlog, hrest⟩ := List.pairwise_cons.mp hsorted
    rw [monthStarts, List.mem_cons, List.mem_filter, ih hrest, opensMonth_cons_iff hlog,
      not_sameMonth_iff]

theorem pairwise_monthStarts {logs : List DailyLog}
    (hsorted : logs.Pairwise fun a b => a.date ≤ b.date) :
    (monthStarts logs).Pairwise fun a b => a.date.monthNumber < b.date.monthNumber := by
  induction logs with
  | nil => exact .nil
  | cons log rest ih =>
    obtain ⟨hlog, hrest⟩ := List.pairwise_cons.mp hsorted
    rw [monthStarts]
    refine List.pairwise_cons.mpr ⟨?_, (ih hrest).filter _⟩
    intro other hother
    obtain ⟨hmem, hmonth⟩ := List.mem_filter.mp hother
    have hne := not_sameMonth_iff.mp hmonth
    have hle := Date.monthNumber_le (hlog other ((sublist_monthStarts rest).subset hmem))
    omega

/-- Each month with a log has one that starts it. -/
theorem exists_mem_monthStarts {logs : List DailyLog} {log : DailyLog} (h : log ∈ logs) :
    ∃ first ∈ monthStarts logs, first.date.monthNumber = log.date.monthNumber := by
  induction logs with
  | nil => cases h
  | cons other rest ih =>
    rw [monthStarts]
    by_cases hsame : other.date.monthNumber = log.date.monthNumber
    · exact ⟨other, List.mem_cons_self, hsame⟩
    · rcases List.mem_cons.mp h with rfl | h
      · exact absurd rfl hsame
      · obtain ⟨first, hfirst, hmonth⟩ := ih h
        refine ⟨first, List.mem_cons_of_mem _ (List.mem_filter.mpr ⟨hfirst, ?_⟩), hmonth⟩
        rw [not_sameMonth_iff, hmonth]
        exact hsame

/-! ### Days with logs -/

theorem nodup_eraseDups {α : Type} [BEq α] [LawfulBEq α] (items : List α) :
    items.eraseDups.Nodup := by
  induction hlength : items.length using Nat.strongRecOn generalizing items with
  | ind n ih =>
    cases items with
    | nil => simp
    | cons first rest =>
      rw [List.eraseDups_cons, List.nodup_cons]
      constructor
      · rw [List.mem_eraseDups]
        simp
      · have hle := List.length_filter_le (fun other => !other == first) rest
        rw [List.length_cons] at hlength
        exact ih _ (by omega) _ rfl

/-- The dates of the month of a date that have a log. -/
def loggedDates (date : Date) (logs : List DailyLog) : Set Date :=
  {d | d ∈ Date.monthDates date.year date.month ∧ d ∈ logs.map DailyLog.date}

theorem daysLogged_eq_ncard (date : Date) (logs : List DailyLog) :
    daysLogged date logs = (loggedDates date logs).ncard := by
  have hset : loggedDates date logs =
      ↑((logs.map DailyLog.date).filter (sameMonth date)).eraseDups.toFinset := by
    ext d
    have hmonth : d ∈ Date.monthDates date.year date.month ↔ sameMonth date d = true := by
      rw [sameMonth_iff, Date.monthNumber_eq_iff, eq_comm, eq_comm (a := date.month)]
      rfl
    simp only [loggedDates, Set.mem_ofPred_eq, hmonth, List.coe_toFinset, List.mem_eraseDups,
      List.mem_filter, and_comm]
  rw [hset, Set.ncard_coe_finset, List.toFinset_card_of_nodup (nodup_eraseDups _), daysLogged]

/-- **A month is complete when as many of its dates are logged as it is long.** -/
theorem daysLogged_eq_monthLength_iff {date : Date} {logs : List DailyLog} :
    daysLogged date logs = monthLength date.year date.month ↔
      ∀ d : Date, d.monthNumber = date.monthNumber → ∃ log ∈ logs, log.date = d := by
  obtain ⟨hfirst, hlast, hmonth, hmonth', -, -⟩ := date.valid
  have hsub : loggedDates date logs ⊆ Date.monthDates date.year date.month := fun d hd => hd.1
  have hfinite := Date.finite_monthDates hfirst hlast hmonth hmonth'
  rw [daysLogged_eq_ncard, ← Date.ncard_monthDates hfirst hlast hmonth hmonth']
  constructor
  · intro hcount d hd
    have hall := Set.eq_of_subset_of_ncard_le hsub hcount.ge hfinite
    have hlogged : d ∈ loggedDates date logs := by
      rw [hall]
      exact Date.monthNumber_eq_iff.mp hd
    exact List.mem_map.mp hlogged.2
  · intro hall
    congr 1
    refine Set.Subset.antisymm hsub ?_
    rintro d hd
    exact ⟨hd, List.mem_map.mpr (hall d (Date.monthNumber_eq_iff.mpr hd))⟩

theorem daysLogged_congr (date : Date) {logs logs' : List DailyLog} (h : logs.Perm logs') :
    daysLogged date logs = daysLogged date logs' := by
  rw [daysLogged_eq_ncard, daysLogged_eq_ncard]
  unfold loggedDates
  simp only [(h.map DailyLog.date).mem_iff]

/-! ### The findings about months -/

def dayCountFinding (v : Validator) (logs : List DailyLog) (first : DailyLog) : Diagnostic :=
  let year := String.ofList (paddedInt 4 first.date.year)
  let month := String.ofList (padded 2 first.date.month)
  let present := daysLogged first.date logs
  let expected := monthLength first.date.year first.date.month
  v.finding .incorrectDayCount first.line first.line first.line
    s!"{year}-{month} has {present} days, expected {expected}"

/-- Whether the month of a log is reported: it lacks a day, and there is a month after it. -/
def IsReported (logs : List DailyLog) (first : DailyLog) : Prop :=
  daysLogged first.date logs ≠ monthLength first.date.year first.date.month ∧
    first.date.monthNumber ≠ Date.lastMonth

instance (logs : List DailyLog) (first : DailyLog) : Decidable (IsReported logs first) :=
  inferInstanceAs (Decidable (_ ∧ _))

theorem checkMonth_eq (v : Validator) (logs : List DailyLog) (first : DailyLog) :
    v.checkMonth logs first =
      if IsReported logs first then [v.dayCountFinding logs first] else [] := by
  obtain ⟨hfirst, hlast, hmonth, hmonth', -, -⟩ := first.date.valid
  unfold checkMonth
  by_cases hnext : first.date.monthNumber = Date.lastMonth
  · have hnone : daysInMonth? first.date.year first.date.month = none := by
      obtain ⟨hyear, hdecember⟩ := Date.monthNumber_eq_lastMonth_iff.mp hnext
      rw [hyear, hdecember, daysInMonth?_last_month]
    rw [hnone, if_neg fun h => h.2 hnext]
  · have hdays := daysInMonth?_eq_some hfirst hlast hmonth hmonth'
      fun h => hnext (Date.monthNumber_eq_lastMonth_iff.mpr h)
    rw [hdays]
    dsimp only
    by_cases hcount : daysLogged first.date logs = monthLength first.date.year first.date.month
    · rw [if_pos hcount, if_neg fun h => h.1 hcount]
    · rw [if_neg hcount, if_pos ⟨hcount, hnext⟩]
      rfl

/-- The logs that open the months to report, in order. -/
def reported (logs : List DailyLog) : List DailyLog :=
  (monthStarts (sortByDate logs)).filter fun first => IsReported logs first

theorem checkMonths_eq (v : Validator) (logs : List DailyLog) :
    v.checkMonths (sortByDate logs) = (reported logs).map (v.dayCountFinding logs) := by
  have hcount (date : Date) : daysLogged date (sortByDate logs) = daysLogged date logs :=
    daysLogged_congr date (perm_sortByDate logs)
  have hreported (first : DailyLog) :
      IsReported (sortByDate logs) first ↔ IsReported logs first := by
    unfold IsReported
    rw [hcount]
  have hfinding (first : DailyLog) :
      v.dayCountFinding (sortByDate logs) first = v.dayCountFinding logs first := by
    unfold dayCountFinding
    rw [hcount]
  unfold checkMonths reported
  rw [← flatMap_ite_singleton]
  apply List.flatMap_congr
  intro first _
  simp [checkMonth_eq, hreported, hfinding]

theorem withCode_incorrectDayCount_checkDay (v : Validator) (log : DailyLog) :
    withCode .incorrectDayCount (v.checkDay log) = [] := by
  rw [withCode_checkDay, withCode_checkLengths v (by decide) (by decide)]
  rfl

theorem withCode_incorrectDayCount_checkBatch {v : Validator} (hmode : v.config.mode = .full)
    (hcheck : v.config.checkDayCount = true) (logs : List DailyLog) :
    withCode .incorrectDayCount (v.checkBatch logs) =
      (reported logs).map (v.dayCountFinding logs) := by
  have hdates : withCode .incorrectDayCount (v.checkContinuity (sortByDate logs)) = [] := by
    rw [withCode_of_code (fun _ hd => code_of_mem_checkContinuity hd), if_neg (by decide)]
  have hmonths : withCode .incorrectDayCount (v.checkMonths (sortByDate logs)) =
      v.checkMonths (sortByDate logs) := by
    rw [withCode_of_code (fun _ hd => code_of_mem_checkMonths hd), if_pos rfl]
  have hdays : withCode .incorrectDayCount ((sortByDate logs).flatMap v.checkDay) = [] := by
    rw [withCode_flatMap]
    exact List.flatMap_eq_nil_iff.mpr fun log _ => v.withCode_incorrectDayCount_checkDay log
  unfold checkBatch
  rw [hmode, hcheck]
  dsimp only
  rw [if_pos rfl, withCode_append, withCode_append, hdates, hmonths, hdays, checkMonths_eq,
    List.nil_append, List.append_nil]

/-! ### Incomplete months -/

/-- Whether some logs are those that open the incomplete months of a batch, in order; the last
    month that has dates is left out. -/
structure OpenIncomplete (logs firsts : List DailyLog) : Prop where
  ascending : firsts.Pairwise fun a b => a.date.monthNumber < b.date.monthNumber
  opens : ∀ first ∈ firsts, OpensMonth logs first
  mem_iff : ∀ month, month ∈ firsts.map (fun first => first.date.monthNumber) ↔
    IncompleteMonth logs month ∧ month ≠ Date.lastMonth

theorem openIncomplete_reported (logs : List DailyLog) : OpenIncomplete logs (reported logs) := by
  have hsorted := pairwise_sortByDate logs
  have hlacks (date : Date) :
      daysLogged date logs ≠ monthLength date.year date.month ↔
        ∃ d : Date, d.monthNumber = date.monthNumber ∧ ∀ log ∈ logs, log.date ≠ d := by
    rw [Ne, daysLogged_eq_monthLength_iff]
    push Not
    rfl
  constructor
  case ascending => exact (pairwise_monthStarts hsorted).filter _
  case opens =>
    intro first hfirst
    have hstart := (List.mem_filter.mp hfirst).1
    rwa [mem_monthStarts_iff hsorted, opensMonth_sortByDate_iff] at hstart
  case mem_iff =>
    intro month
    constructor
    · intro hmonth
      obtain ⟨first, hfirst, rfl⟩ := List.mem_map.mp hmonth
      obtain ⟨hstart, hreported⟩ := List.mem_filter.mp hfirst
      obtain ⟨hcount, hlast⟩ := of_decide_eq_true hreported
      rw [mem_monthStarts_iff hsorted, opensMonth_sortByDate_iff] at hstart
      exact ⟨⟨⟨first, hstart.mem, rfl⟩, (hlacks first.date).mp hcount⟩, hlast⟩
    · rintro ⟨⟨⟨log, hlog, rfl⟩, hlacking⟩, hlast⟩
      have hlog' : log ∈ sortByDate logs := (perm_sortByDate logs).mem_iff.mpr hlog
      obtain ⟨first, hstart, hmonth⟩ := exists_mem_monthStarts hlog'
      rw [← hmonth] at hlacking hlast ⊢
      refine List.mem_map.mpr ⟨first, List.mem_filter.mpr ⟨hstart, ?_⟩, rfl⟩
      exact decide_eq_true ⟨(hlacks first.date).mpr hlacking, hlast⟩

end Validator

end Daybook
