/-
  Daybook/Proofs/Validation/Gaps.lean
  ===================================
  **The dates missing between neighbours.**  Logs that stand next to each other in
  order have no other log between them, and every date between two logs that has
  none lies between two such neighbours (`exists_mem_neighbours`).  Counting the days
  between all neighbours therefore meets each missing date once
  (`pairwise_gapsOf`).
-/
import Daybook.Proofs.Record.Grouping
import Daybook.Validation.Batch

namespace Daybook

/-! ### Neighbours -/

theorem neighbours_cons_cons {α : Type} (a b : α) (rest : List α) :
    neighbours (a :: b :: rest) = (a, b) :: neighbours (b :: rest) := rfl

theorem exists_of_mem_neighbours {α : Type} {a b : α} {items : List α}
    (h : (a, b) ∈ neighbours items) : ∃ front back, items = front ++ a :: b :: back := by
  induction items with
  | nil => cases h
  | cons first rest ih =>
    cases rest with
    | nil => cases h
    | cons second rest =>
      rw [neighbours_cons_cons] at h
      rcases List.mem_cons.mp h with heq | h
      · obtain ⟨rfl, rfl⟩ := Prod.mk.inj heq
        exact ⟨[], rest, rfl⟩
      · obtain ⟨front, back, hitems⟩ := ih h
        exact ⟨first :: front, back, by rw [hitems, List.cons_append]⟩

/-- Whether two logs have no other between them. -/
structure Adjacent (logs : List DailyLog) (before after : DailyLog) : Prop where
  before_mem : before ∈ logs
  after_mem : after ∈ logs
  le : before.date ≤ after.date
  outside : ∀ log ∈ logs, log.date ≤ before.date ∨ after.date ≤ log.date

section

variable {logs : List DailyLog} {before after : DailyLog} {date : Date}

theorem Adjacent.perm {logs' : List DailyLog} (h : Adjacent logs before after)
    (hperm : logs.Perm logs') : Adjacent logs' before after where
  before_mem := hperm.mem_iff.mp h.before_mem
  after_mem := hperm.mem_iff.mp h.after_mem
  le := h.le
  outside := fun log hlog => h.outside log (hperm.mem_iff.mpr hlog)

theorem Adjacent.missing (h : Adjacent logs before after) (hbefore : before.date < date)
    (hafter : date < after.date) : ∀ log ∈ logs, log.date ≠ date := by
  rintro log hlog rfl
  rcases h.outside log hlog with hle | hle
  · exact not_lt.mpr hle hbefore
  · exact not_lt.mpr hle hafter

variable (hsorted : logs.Pairwise fun a b => a.date ≤ b.date)
include hsorted

theorem adjacent_of_mem_neighbours (h : (before, after) ∈ neighbours logs) :
    Adjacent logs before after := by
  obtain ⟨front, back, rfl⟩ := exists_of_mem_neighbours h
  obtain ⟨-, hback, hfront⟩ := List.pairwise_append.mp hsorted
  obtain ⟨hbefore, hback⟩ := List.pairwise_cons.mp hback
  obtain ⟨hafter, -⟩ := List.pairwise_cons.mp hback
  refine ⟨by simp, by simp, hbefore after List.mem_cons_self, ?_⟩
  intro log hlog
  rcases List.mem_append.mp hlog with hlog | hlog
  · exact .inl (hfront log hlog before List.mem_cons_self)
  · rcases List.mem_cons.mp hlog with rfl | hlog
    · exact .inl (le_refl _)
    · rcases List.mem_cons.mp hlog with rfl | hlog
      · exact .inr (le_refl _)
      · exact .inr (hafter log hlog)

theorem exists_mem_neighbours (hmissing : ∀ log ∈ logs, log.date ≠ date)
    (hbefore : ∃ log ∈ logs, log.date < date) (hafter : ∃ log ∈ logs, date < log.date) :
    ∃ before after, (before, after) ∈ neighbours logs ∧ before.date < date ∧ date < after.date := by
  induction logs with
  | nil =>
    obtain ⟨log, hlog, -⟩ := hbefore
    cases hlog
  | cons first rest ih =>
    obtain ⟨hfirst, hrest⟩ := List.pairwise_cons.mp hsorted
    have hearliest : first.date < date := by
      obtain ⟨log, hlog, hlt⟩ := hbefore
      rcases List.mem_cons.mp hlog with rfl | hlog
      · exact hlt
      · exact lt_of_le_of_lt (hfirst log hlog) hlt
    have hlater : ∃ log ∈ rest, date < log.date := by
      obtain ⟨log, hlog, hlt⟩ := hafter
      rcases List.mem_cons.mp hlog with rfl | hlog
      · exact absurd hlt (lt_asymm hearliest)
      · exact ⟨log, hlog, hlt⟩
    cases rest with
    | nil =>
      obtain ⟨log, hlog, -⟩ := hlater
      cases hlog
    | cons second rest =>
      rcases lt_trichotomy second.date date with hlt | heq | hgt
      · obtain ⟨before, after, hmem, hbetween⟩ := ih hrest
          (fun log hlog => hmissing log (List.mem_cons_of_mem _ hlog))
          ⟨second, List.mem_cons_self, hlt⟩ hlater
        exact ⟨before, after, List.mem_cons_of_mem _ hmem, hbetween⟩
      · exact absurd heq (hmissing second (List.mem_cons_of_mem _ List.mem_cons_self))
      · exact ⟨first, second, List.mem_cons_self, hearliest, hgt⟩

theorem pairwise_neighbours :
    (neighbours logs).Pairwise fun earlier later => earlier.2.date ≤ later.1.date := by
  induction logs with
  | nil => exact .nil
  | cons first rest ih =>
    obtain ⟨-, hrest⟩ := List.pairwise_cons.mp hsorted
    cases rest with
    | nil => exact .nil
    | cons second rest =>
      rw [neighbours_cons_cons]
      refine List.pairwise_cons.mpr ⟨?_, ih hrest⟩
      rintro ⟨before, after⟩ hmem
      rcases List.mem_cons.mp (adjacent_of_mem_neighbours hrest hmem).before_mem with rfl | hlater
      · exact le_refl _
      · exact (List.pairwise_cons.mp hrest).1 before hlater

end

section

variable {logs : List DailyLog} {before after : DailyLog} {date : Date}

theorem adjacent_of_mem_neighbours_sortByDate (h : (before, after) ∈ neighbours (sortByDate logs)) :
    Adjacent logs before after :=
  (adjacent_of_mem_neighbours (pairwise_sortByDate logs) h).perm (perm_sortByDate logs)

theorem exists_mem_neighbours_sortByDate (hmissing : ∀ log ∈ logs, log.date ≠ date)
    (hbefore : ∃ log ∈ logs, log.date < date) (hafter : ∃ log ∈ logs, date < log.date) :
    ∃ before after, (before, after) ∈ neighbours (sortByDate logs) ∧ before.date < date ∧
      date < after.date := by
  have hmem {log : DailyLog} : log ∈ sortByDate logs ↔ log ∈ logs := (perm_sortByDate logs).mem_iff
  obtain ⟨earlier, hearlier, hlt⟩ := hbefore
  obtain ⟨later, hlater, hgt⟩ := hafter
  exact exists_mem_neighbours (pairwise_sortByDate logs)
    (fun log hlog => hmissing log (hmem.mp hlog)) ⟨earlier, hmem.mpr hearlier, hlt⟩
    ⟨later, hmem.mpr hlater, hgt⟩

end

/-! ### Gaps -/

/-- A date without a log between two logs. -/
structure Gap where
  before : DailyLog
  after : DailyLog
  date : Date

def gapsOf (pairs : List (DailyLog × DailyLog)) : List Gap :=
  pairs.flatMap fun (before, after) =>
    (Date.strictlyBetween before.date after.date).map fun date => { before, after, date }

theorem mem_gapsOf {pairs : List (DailyLog × DailyLog)} {gap : Gap} :
    gap ∈ gapsOf pairs ↔
      (gap.before, gap.after) ∈ pairs ∧ gap.before.date < gap.date ∧ gap.date < gap.after.date := by
  unfold gapsOf
  rw [List.mem_flatMap]
  constructor
  · rintro ⟨⟨before, after⟩, hpair, hmem⟩
    obtain ⟨date, hdate, rfl⟩ := List.mem_map.mp hmem
    exact ⟨hpair, Date.mem_strictlyBetween.mp hdate⟩
  · rintro ⟨hpair, hbetween⟩
    exact ⟨_, hpair, List.mem_map.mpr ⟨_, Date.mem_strictlyBetween.mpr hbetween, rfl⟩⟩

/-- **Gaps come in the order of their dates**, each date once. -/
theorem pairwise_gapsOf {pairs : List (DailyLog × DailyLog)}
    (h : pairs.Pairwise fun earlier later => earlier.2.date ≤ later.1.date) :
    (gapsOf pairs).Pairwise fun earlier later => earlier.date < later.date := by
  refine List.pairwise_flatMap.mpr ⟨?_, h.imp ?_⟩
  · rintro ⟨before, after⟩ -
    exact List.pairwise_map.mpr (Date.pairwise_strictlyBetween _ _)
  · rintro ⟨before, after⟩ ⟨before', after'⟩ hle gap hgap gap' hgap'
    obtain ⟨date, hdate, rfl⟩ := List.mem_map.mp hgap
    obtain ⟨date', hdate', rfl⟩ := List.mem_map.mp hgap'
    have hlt := (Date.mem_strictlyBetween.mp hdate).2
    have hlt' := (Date.mem_strictlyBetween.mp hdate').1
    exact lt_trans hlt (lt_of_le_of_lt hle hlt')

namespace Validator

/-- What is said of a missing date: it and the dates around it, at the line of the log after it and
    about the lines from the log before it to that one. -/
def gapFinding (v : Validator) (gap : Gap) : Diagnostic where
  severity := .error
  code := .missingDate
  message :=
    s!"no daily log for {gap.date.text} (between {gap.before.date.text} and {gap.after.date.text})"
  line := gap.after.line
  span := some {
    file := v.file, lineStart := gap.before.line, lineEnd := max gap.after.line gap.before.line,
    columnStart := 1, columnEnd := 1 }

/-- Every date between two logs is said to be missing. -/
theorem checkPair_eq (v : Validator) (before after : DailyLog) :
    v.checkPair before after =
      (Date.strictlyBetween before.date after.date).map fun date =>
        v.gapFinding { before, after, date } := rfl

theorem checkContinuity_eq (v : Validator) (logs : List DailyLog) :
    v.checkContinuity logs = (neighbours logs).flatMap fun pair => v.checkPair pair.1 pair.2 := rfl

theorem flatMap_checkPair (v : Validator) (pairs : List (DailyLog × DailyLog)) :
    (pairs.flatMap fun pair => v.checkPair pair.1 pair.2) =
      (gapsOf pairs).map v.gapFinding := by
  unfold gapsOf
  rw [List.map_flatMap]
  apply List.flatMap_congr
  rintro ⟨before, after⟩ -
  rw [checkPair_eq, List.map_map]
  rfl

end Validator

end Daybook
