/-
  Daybook/Proofs/Validation/Scopes.lean
  =====================================
  **What a scope makes out.**  Each check looks at the months of a batch one by
  one, but for the dates between two neighbours of different months.  So checking
  all logs together finds what checking them by month finds, and the dates
  missing between the months (`perm_check_range`); those are the dates between the
  last day of one month and the first day of the next (`betweenMonths_of_mem`,
  `exists_mem_of_betweenMonths`).
-/
import Daybook.Proofs.Validation.Gaps
import Mathlib.Data.List.Perm.Basic

namespace Daybook

/-! ### The neighbours of one month -/

def neighboursWithin (logs : List DailyLog) : List (DailyLog × DailyLog) :=
  (neighbours logs).filter fun pair => pair.1.date.monthKey == pair.2.date.monthKey

def neighboursAcross (logs : List DailyLog) : List (DailyLog × DailyLog) :=
  (neighbours logs).filter fun pair => !(pair.1.date.monthKey == pair.2.date.monthKey)

theorem perm_neighbours (logs : List DailyLog) :
    (neighbours logs).Perm (neighboursWithin logs ++ neighboursAcross logs) :=
  (List.filter_append_perm _ _).symm

/-- Behind the last log of a month there is none of it. -/
theorem ofMonth_eq_nil {log next : DailyLog} {rest : List DailyLog}
    (hsorted : (log :: next :: rest).Pairwise fun a b => a.date ≤ b.date)
    (hnext : next.date.monthKey ≠ log.date.monthKey) :
    ofMonth log.date.monthKey (next :: rest) = [] := by
  obtain ⟨hlog, hrest⟩ := List.pairwise_cons.mp hsorted
  apply List.filter_eq_nil_iff.mpr
  intro other hother
  rw [beq_iff_eq, Date.monthKey_eq_iff]
  rw [Ne, Date.monthKey_eq_iff] at hnext
  have hle := Date.monthNumber_le (hlog next List.mem_cons_self)
  rcases List.mem_cons.mp hother with rfl | hother
  · exact hnext
  · have hle' := Date.monthNumber_le ((List.pairwise_cons.mp hrest).1 other hother)
    omega

theorem neighbours_ofMonth {logs : List DailyLog}
    (hsorted : logs.Pairwise fun a b => a.date ≤ b.date) (key : String) :
    neighbours (ofMonth key logs) =
      (neighboursWithin logs).filter fun pair => pair.1.date.monthKey == key := by
  unfold neighboursWithin
  rw [List.filter_filter]
  induction logs with
  | nil => rfl
  | cons log rest ih =>
    obtain ⟨-, hrest⟩ := List.pairwise_cons.mp hsorted
    specialize ih hrest
    cases rest with
    | nil =>
      by_cases hlog : log.date.monthKey = key
      · simp [ofMonth, hlog, neighbours]
      · simp [ofMonth, hlog, neighbours]
    | cons next rest =>
      rw [neighbours_cons_cons]
      by_cases hlog : log.date.monthKey = key
      · have hmonth : ofMonth key (log :: next :: rest) = log :: ofMonth key (next :: rest) :=
          List.filter_cons_of_pos (by simpa using hlog)
        rw [hmonth]
        by_cases hnext : next.date.monthKey = key
        · have hmonth' : ofMonth key (next :: rest) = next :: ofMonth key rest :=
            List.filter_cons_of_pos (by simpa using hnext)
          rw [hmonth'] at ih ⊢
          rw [neighbours_cons_cons, ih, List.filter_cons_of_pos (by simp [hlog, hnext])]
        · have hnone : ofMonth key (next :: rest) = [] := by
            subst hlog
            exact ofMonth_eq_nil hsorted hnext
          rw [hnone] at ih ⊢
          rw [List.filter_cons_of_neg (by simp [hlog, Ne.symm hnext]), ← ih]
          rfl
      · have hmonth : ofMonth key (log :: next :: rest) = ofMonth key (next :: rest) :=
          List.filter_cons_of_neg (by simpa using hlog)
        rw [hmonth, ih, List.filter_cons_of_neg (by simp [hlog])]

namespace Validator

/-! ### The count of one month -/

theorem sameMonth_eq (a b : Date) : sameMonth a b = (b.monthKey == a.monthKey) := by
  rw [Bool.eq_iff_iff, beq_iff_eq, Date.monthKey_eq_iff, Date.monthNumber_eq_iff, sameMonth,
    Bool.and_eq_true, beq_iff_eq, beq_iff_eq, eq_comm, eq_comm (a := a.month)]

theorem monthStarts_ofMonth (key : String) (logs : List DailyLog) :
    monthStarts (ofMonth key logs) =
      (monthStarts logs).filter fun log => log.date.monthKey == key := by
  induction logs with
  | nil => rfl
  | cons log rest ih =>
    by_cases hlog : log.date.monthKey = key
    · have hmonth : ofMonth key (log :: rest) = log :: ofMonth key rest :=
        List.filter_cons_of_pos (by simpa using hlog)
      rw [hmonth, monthStarts, monthStarts, List.filter_cons_of_pos (by simpa using hlog), ih,
        List.filter_comm]
    · have hmonth : ofMonth key (log :: rest) = ofMonth key rest :=
        List.filter_cons_of_neg (by simpa using hlog)
      rw [hmonth, monthStarts, List.filter_cons_of_neg (by simpa using hlog), List.filter_filter,
        ih]
      apply List.filter_congr
      intro other _
      by_cases hother : other.date.monthKey = key
      · simp [sameMonth_eq, hother, Ne.symm hlog]
      · simp [hother]

theorem sublist_monthStarts (logs : List DailyLog) : (monthStarts logs).Sublist logs := by
  induction logs with
  | nil => exact .slnil
  | cons log rest ih => exact (List.filter_sublist.trans ih).cons_cons log

theorem daysLogged_ofMonth (date : Date) (logs : List DailyLog) :
    daysLogged date (ofMonth date.monthKey logs) = daysLogged date logs := by
  unfold daysLogged ofMonth
  simp only [List.filter_map, List.filter_filter, sameMonth_eq, Function.comp_def, Bool.and_self]

theorem checkMonths_ofMonth (v : Validator) (key : String) (logs : List DailyLog) :
    v.checkMonths (ofMonth key logs) =
      ((monthStarts logs).filter fun log => log.date.monthKey == key).flatMap
        (v.checkMonth logs) := by
  unfold checkMonths
  rw [monthStarts_ofMonth]
  apply List.flatMap_congr
  intro first hfirst
  obtain rfl := beq_iff_eq.mp (List.mem_filter.mp hfirst).2
  unfold checkMonth
  rw [daysLogged_ofMonth]

/-! ### Months checked one by one -/

/-- What a check finds in the months of the logs, one after the other. -/
def inMonths (check : List DailyLog → List Diagnostic) (logs : List DailyLog) : List Diagnostic :=
  (groupByMonth logs).keys.flatMap fun key => check (ofMonth key (sortByDate logs))

theorem perm_inMonths_append (check check' : List DailyLog → List Diagnostic)
    (logs : List DailyLog) :
    (inMonths (fun batch => check batch ++ check' batch) logs).Perm
      (inMonths check logs ++ inMonths check' logs) :=
  (List.flatMap_append_perm _ _ _).symm

theorem perm_inMonths_checkDay (v : Validator) (logs : List DailyLog) :
    (inMonths (fun batch => batch.flatMap v.checkDay) logs).Perm
      ((sortByDate logs).flatMap v.checkDay) := by
  refine perm_flatMap_keys _ ?_ v.checkDay
  intro log hlog
  exact ⟨log, (perm_sortByDate logs).mem_iff.mp hlog, rfl⟩

/-- The months of a batch that are not complete, where that is asked for. -/
def checkCounts (v : Validator) (logs : List DailyLog) : List Diagnostic :=
  if v.config.checkDayCount then v.checkMonths logs else []

theorem perm_inMonths_checkCounts (v : Validator) (logs : List DailyLog) :
    (inMonths v.checkCounts logs).Perm (v.checkCounts (sortByDate logs)) := by
  unfold inMonths checkCounts
  split
  · simp only [checkMonths_ofMonth]
    refine perm_flatMap_keys _ ?_ (v.checkMonth (sortByDate logs))
    intro log hlog
    have hmem := (sublist_monthStarts (sortByDate logs)).subset hlog
    exact ⟨log, (perm_sortByDate logs).mem_iff.mp hmem, rfl⟩
  · simp

theorem perm_checkContinuity (v : Validator) (logs : List DailyLog) :
    (v.checkContinuity (sortByDate logs)).Perm
      (inMonths v.checkContinuity logs ++
        (gapsOf (neighboursAcross (sortByDate logs))).map v.gapFinding) := by
  have hsorted := pairwise_sortByDate logs
  have hwithin : (inMonths v.checkContinuity logs).Perm
      ((neighboursWithin (sortByDate logs)).flatMap fun pair => v.checkPair pair.1 pair.2) := by
    unfold inMonths
    simp only [checkContinuity_eq, neighbours_ofMonth hsorted]
    refine perm_flatMap_keys (fun pair : DailyLog × DailyLog => pair.1.date.monthKey) ?_ _
    intro pair hpair
    have hmem := (adjacent_of_mem_neighbours hsorted (List.mem_filter.mp hpair).1).before_mem
    exact ⟨pair.1, (perm_sortByDate logs).mem_iff.mp hmem, rfl⟩
  have hsplit := (perm_neighbours (sortByDate logs)).flatMap_right
    fun pair => v.checkPair pair.1 pair.2
  rw [List.flatMap_append, flatMap_checkPair v (neighboursAcross _)] at hsplit
  exact hsplit.trans (hwithin.symm.append_right _)

/-! ### Scopes -/

/-- What the checks of the mode find in a batch that is in order. -/
def checkInOrder (v : Validator) (logs : List DailyLog) : List Diagnostic :=
  match v.config.mode with
  | .none => []
  | .continuity => v.checkContinuity logs
  | .full => v.checkContinuity logs ++ v.checkCounts logs ++ logs.flatMap v.checkDay

theorem check_range_eq (v : Validator) (logs : List DailyLog) :
    v.check .range logs = v.checkInOrder (sortByDate logs) := rfl

theorem check_month_eq (v : Validator) (logs : List DailyLog) :
    v.check .month logs = inMonths v.checkInOrder logs := by
  have hcheck : v.check .month logs = (groupByMonth logs).values.flatMap v.checkBatch := rfl
  rw [hcheck, values_groupByMonth, List.flatMap_map]
  apply List.flatMap_congr
  intro key _
  have hsorted : sortByDate (ofMonth key (sortByDate logs)) = ofMonth key (sortByDate logs) :=
    sortByDate_of_pairwise ((pairwise_sortByDate logs).filter _)
  have hbatch : v.checkBatch (ofMonth key (sortByDate logs)) =
      v.checkInOrder (sortByDate (ofMonth key (sortByDate logs))) := rfl
  rw [hbatch, hsorted]

/-- The dates that are missing between months, where the mode asks for missing dates. -/
def gapsAcross (v : Validator) (logs : List DailyLog) : List Gap :=
  match v.config.mode with
  | .none => []
  | _ => gapsOf (neighboursAcross (sortByDate logs))

theorem gapsAcross_of_none {v : Validator} (h : v.config.mode = .none) (logs : List DailyLog) :
    v.gapsAcross logs = [] := by
  unfold gapsAcross
  rw [h]

theorem gapsAcross_of_ne_none {v : Validator} (h : v.config.mode ≠ .none) (logs : List DailyLog) :
    v.gapsAcross logs = gapsOf (neighboursAcross (sortByDate logs)) := by
  unfold gapsAcross
  cases hmode : v.config.mode with
  | none => exact absurd hmode h
  | continuity => rfl
  | full => rfl

/-- **All logs together have the findings of the months and those between the months.** -/
theorem perm_check_range (v : Validator) (logs : List DailyLog) :
    (v.check .range logs).Perm (v.check .month logs ++ (v.gapsAcross logs).map v.gapFinding) := by
  rw [check_range_eq, check_month_eq]
  unfold checkInOrder gapsAcross
  cases v.config.mode with
  | none => simp [inMonths]
  | continuity => exact v.perm_checkContinuity logs
  | full =>
    have hmonths : (inMonths (fun batch =>
        v.checkContinuity batch ++ v.checkCounts batch ++ batch.flatMap v.checkDay) logs).Perm
        (inMonths v.checkContinuity logs ++ v.checkCounts (sortByDate logs) ++
          (sortByDate logs).flatMap v.checkDay) := by
      refine (perm_inMonths_append _ _ logs).trans (.append ?_ (v.perm_inMonths_checkDay logs))
      exact (perm_inMonths_append _ _ logs).trans ((v.perm_inMonths_checkCounts logs).append_left _)
    refine (((v.perm_checkContinuity logs).append_right _).append_right _).trans
      (List.Perm.trans ?_ (hmonths.symm.append_right _))
    -- the gaps between months move behind the other findings
    simp only [List.append_assoc]
    refine List.Perm.append_left _ (List.perm_append_comm.trans ?_)
    rw [List.append_assoc]

theorem check_congr (v : Validator) (scope : ValidationScope) {logs logs' : List DailyLog}
    (hperm : logs.Perm logs') (hdates : (logs.map DailyLog.date).Nodup) :
    v.check scope logs = v.check scope logs' := by
  cases scope with
  | range => rw [check_range_eq, check_range_eq, sortByDate_congr hperm hdates]
  | month =>
    rw [check_month_eq, check_month_eq]
    unfold inMonths
    rw [sortByDate_congr hperm hdates, groupByMonth_congr hperm hdates]

end Validator

/-! ### Between months -/

/-- Whether a missing date lies between the last date of a month that has logs and the first date of
    the next month that has some. -/
structure Gap.BetweenMonths (logs : List DailyLog) (gap : Gap) : Prop where
  missing : ∀ log ∈ logs, log.date ≠ gap.date
  before_mem : gap.before ∈ logs
  before_last : ∀ log ∈ logs, log.date.monthNumber = gap.before.date.monthNumber →
    log.date ≤ gap.before.date
  after_mem : gap.after ∈ logs
  after_first : ∀ log ∈ logs, log.date.monthNumber = gap.after.date.monthNumber →
    gap.after.date ≤ log.date
  month_lt : gap.before.date.monthNumber < gap.after.date.monthNumber
  next : ∀ log ∈ logs, log.date.monthNumber ≤ gap.before.date.monthNumber ∨
    gap.after.date.monthNumber ≤ log.date.monthNumber
  before_lt : gap.before.date < gap.date
  lt_after : gap.date < gap.after.date

section

variable {logs : List DailyLog} {gap : Gap}

theorem pairwise_gapsOf_neighboursAcross (logs : List DailyLog) :
    (gapsOf (neighboursAcross (sortByDate logs))).Pairwise
      fun earlier later => earlier.date < later.date :=
  pairwise_gapsOf (List.Pairwise.filter _ (pairwise_neighbours (pairwise_sortByDate logs)))

theorem betweenMonths_of_mem (h : gap ∈ gapsOf (neighboursAcross (sortByDate logs))) :
    gap.BetweenMonths logs := by
  obtain ⟨hpair, hbefore, hafter⟩ := mem_gapsOf.mp h
  obtain ⟨hpair, hmonths⟩ := List.mem_filter.mp hpair
  have hadjacent := adjacent_of_mem_neighbours_sortByDate hpair
  have hle := Date.monthNumber_le hadjacent.le
  have hne : gap.before.date.monthNumber ≠ gap.after.date.monthNumber := by
    rw [Ne, ← Date.monthKey_eq_iff]
    simpa using hmonths
  refine {
    missing := hadjacent.missing hbefore hafter
    before_mem := hadjacent.before_mem
    before_last := ?_
    after_mem := hadjacent.after_mem
    after_first := ?_
    month_lt := by omega
    next := ?_
    before_lt := hbefore
    lt_after := hafter }
  · intro log hlog hsame
    rcases hadjacent.outside log hlog with hearlier | hlater
    · exact hearlier
    · have := Date.monthNumber_le hlater
      omega
  · intro log hlog hsame
    rcases hadjacent.outside log hlog with hearlier | hlater
    · have := Date.monthNumber_le hearlier
      omega
    · exact hlater
  · intro log hlog
    rcases hadjacent.outside log hlog with hearlier | hlater
    · exact .inl (Date.monthNumber_le hearlier)
    · exact .inr (Date.monthNumber_le hlater)

theorem Gap.BetweenMonths.adjacent (h : gap.BetweenMonths logs) :
    Adjacent logs gap.before gap.after := by
  have hle := le_of_lt (Date.lt_of_monthNumber_lt h.month_lt)
  refine ⟨h.before_mem, h.after_mem, hle, ?_⟩
  intro log hlog
  rcases h.next log hlog with hle | hle
  · rcases Int.lt_or_eq_of_le hle with hmonth | hmonth
    · exact .inl (le_of_lt (Date.lt_of_monthNumber_lt hmonth))
    · exact .inl (h.before_last log hlog hmonth)
  · rcases Int.lt_or_eq_of_le hle with hmonth | hmonth
    · exact .inr (le_of_lt (Date.lt_of_monthNumber_lt hmonth))
    · exact .inr (h.after_first log hlog hmonth.symm)

theorem exists_mem_of_betweenMonths (h : gap.BetweenMonths logs) :
    ∃ found ∈ gapsOf (neighboursAcross (sortByDate logs)), found.date = gap.date := by
  obtain ⟨before, after, hpair, hbefore, hafter⟩ := exists_mem_neighbours_sortByDate h.missing
    ⟨gap.before, h.before_mem, h.before_lt⟩ ⟨gap.after, h.after_mem, h.lt_after⟩
  have hadjacent := adjacent_of_mem_neighbours_sortByDate hpair
  have hearlier : before.date ≤ gap.before.date := by
    rcases h.adjacent.outside before hadjacent.before_mem with hle | hle
    · exact hle
    · exact absurd (lt_trans hbefore h.lt_after) (not_lt.mpr hle)
  have hlater : gap.after.date ≤ after.date := by
    rcases h.adjacent.outside after hadjacent.after_mem with hle | hle
    · exact absurd (lt_trans h.before_lt hafter) (not_lt.mpr hle)
    · exact hle
  have hmonths : (before, after) ∈ neighboursAcross (sortByDate logs) := by
    refine List.mem_filter.mpr ⟨hpair, ?_⟩
    have hlt := h.month_lt
    have hle := Date.monthNumber_le hearlier
    have hle' := Date.monthNumber_le hlater
    have hne : before.date.monthKey ≠ after.date.monthKey := by
      rw [Ne, Date.monthKey_eq_iff]
      omega
    simpa using hne
  exact ⟨{ before, after, date := gap.date }, mem_gapsOf.mpr ⟨hmonths, hbefore, hafter⟩, rfl⟩

end

end Daybook
