/-
  Daybook/Proofs/Record/Chain.lean
  ================================
  **Activities without gaps.**  The activities of a day are a chain from a time of
  day when the first one starts there and each other one starts where the one
  before it ends (`IsChainFrom`).  Recorded lines are a chain, a chain grows at
  its end, and a chain has no joint to report.
-/
import Daybook.Proofs.Scan.DayLines
import Daybook.Validation.Batch

namespace Daybook

/-! ### Intervals -/

theorem intervalSeconds_bounds (start finish : TimeOfDay) :
    0 ≤ intervalSeconds start finish ∧ intervalSeconds start finish ≤ 86399 := by
  have hday : secondsPerDay = 86400 := rfl
  unfold intervalSeconds
  rw [hday]
  omega

/-- Whether an activity is as long as the time between its ends. -/
def Activity.IsTimed (a : Activity) : Prop := a.seconds = intervalSeconds a.start a.finish

theorem Activity.IsTimed.bounds {a : Activity} (h : a.IsTimed) :
    0 ≤ a.seconds ∧ a.seconds ≤ 86399 := by
  have hseconds : a.seconds = intervalSeconds a.start a.finish := h
  rw [hseconds]
  exact intervalSeconds_bounds a.start a.finish

theorem isTimed_of_mem_recordFrom {table : RuleTable} {start : TimeOfDay}
    {lines : List ActivityLine} {a : Activity} (ha : a ∈ table.recordFrom start lines) :
    a.IsTimed := by
  obtain ⟨begun, line, -, rfl⟩ := RuleTable.exists_of_mem_recordFrom ha
  rfl

/-! ### Chains -/

/-- Whether the first of some activities starts at `start`, and each other one where the one before
    it ends. -/
def IsChainFrom (start : TimeOfDay) : List Activity → Prop
  | [] => True
  | a :: rest => a.start = start ∧ IsChainFrom a.finish rest

/-- Where a chain from `start` ends. -/
def chainEnd (start : TimeOfDay) (activities : List Activity) : TimeOfDay :=
  (activities.getLast?.map Activity.finish).getD start

theorem chainEnd_cons (start : TimeOfDay) (a : Activity) (rest : List Activity) :
    chainEnd start (a :: rest) = chainEnd a.finish rest := by
  unfold chainEnd
  rw [List.getLast?_cons]
  cases rest.getLast? <;> rfl

theorem isChainFrom_append_singleton {start : TimeOfDay} {activities : List Activity}
    {a : Activity} :
    IsChainFrom start (activities ++ [a]) ↔
      IsChainFrom start activities ∧ a.start = chainEnd start activities := by
  induction activities generalizing start with
  | nil => simp [IsChainFrom, chainEnd]
  | cons first rest ih =>
    rw [List.cons_append, IsChainFrom, IsChainFrom, ih, chainEnd_cons, and_assoc]

theorem isChainFrom_recordFrom (table : RuleTable) (start : TimeOfDay)
    (lines : List ActivityLine) : IsChainFrom start (table.recordFrom start lines) := by
  induction lines generalizing start with
  | nil => exact trivial
  | cons line rest ih => exact ⟨rfl, ih _⟩

theorem IsChainFrom.meet {start : TimeOfDay} {activities : List Activity}
    (h : IsChainFrom start activities) {before after : Activity}
    (hmem : (before, after) ∈ neighbours activities) : before.finish = after.start := by
  induction activities generalizing start with
  | nil => cases hmem
  | cons first rest ih =>
    cases rest with
    | nil => cases hmem
    | cons second rest =>
      obtain ⟨-, hrest⟩ := h
      rcases List.mem_cons.mp hmem with heq | hmem
      · obtain ⟨rfl, rfl⟩ := Prod.mk.inj heq
        exact hrest.1.symm
      · exact ih hrest hmem

/-- **No time discontinuity is found in a chain.** -/
theorem IsChainFrom.checkJoints_eq_nil {start : TimeOfDay} {log : DailyLog}
    (h : IsChainFrom start log.activities) (v : Validator) : v.checkJoints log = [] := by
  unfold Validator.checkJoints
  apply List.flatMap_eq_nil_iff.mpr
  rintro ⟨before, after⟩ hmem
  have hmeet : before.finish = after.start := h.meet hmem
  dsimp only [Validator.checkJoint]
  rw [if_pos hmeet]

end Daybook
