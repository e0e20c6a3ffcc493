/-
  Daybook/Proofs/Record/TotalTime.lean
  ====================================
  **Time along a chain.**  Intervals that follow on one another add up to the one
  from the first start to the last end, whole days apart, since each of them wraps at
  midnight (`IsChainFrom.sum_modEq`).  As each is shorter than a day, the sum of a day
  with fewer than 10¹⁴ activities stays within 64 bits at every addition, and the
  total is that sum (`IsChainFrom.totalsFrom`).
-/
import Daybook.Proofs.Record.Chain
import Mathlib.Data.Int.ModEq

namespace Daybook

/-! ### Intervals one after the other -/

theorem intervalSeconds_self (t : TimeOfDay) : intervalSeconds t t = 0 := by
  unfold intervalSeconds
  rw [Int.sub_self, Int.zero_emod]

theorem intervalSeconds_add_modEq (start middle finish : TimeOfDay) :
    intervalSeconds start middle + intervalSeconds middle finish ≡
      intervalSeconds start finish [ZMOD secondsPerDay] := by
  have hday : secondsPerDay = 86400 := rfl
  unfold intervalSeconds Int.ModEq
  rw [hday]
  omega

/-- **A chain lasts from its start to its end**, but for whole days. -/
theorem IsChainFrom.sum_modEq {start : TimeOfDay} {activities : List Activity}
    (h : IsChainFrom start activities) (htimed : ∀ a ∈ activities, a.IsTimed) :
    (activities.map Activity.seconds).sum ≡
      intervalSeconds start (chainEnd start activities) [ZMOD secondsPerDay] := by
  induction activities generalizing start with
  | nil =>
    have hend : chainEnd start [] = start := rfl
    rw [hend, intervalSeconds_self]
    rfl
  | cons a rest ih =>
    obtain ⟨rfl, hrest⟩ := h
    rw [List.forall_mem_cons] at htimed
    have hseconds : a.seconds = intervalSeconds a.start a.finish := htimed.1
    rw [List.map_cons, List.sum_cons, chainEnd_cons, hseconds]
    exact ((ih hrest htimed.2).add_left _).trans (intervalSeconds_add_modEq _ _ _)

/-! ### Sums in 64 bits -/

/-- Whether a number has a place in 64 bits, one of them for its sign. -/
def FitsIn64Bits (n : Int) : Prop := -9223372036854775808 ≤ n ∧ n ≤ 9223372036854775807

/-- Whether numbers can be added up from the first on in 64 bits. -/
def AddsUpIn64Bits (numbers : List Int) : Prop :=
  ∀ front, front <+: numbers → FitsIn64Bits front.sum

theorem sum_seconds_bounds {activities : List Activity} (h : ∀ a ∈ activities, a.IsTimed) :
    0 ≤ (activities.map Activity.seconds).sum ∧
      (activities.map Activity.seconds).sum ≤ 86399 * activities.length := by
  induction activities with
  | nil => decide
  | cons a rest ih =>
    rw [List.forall_mem_cons] at h
    obtain ⟨hleast, hmost⟩ := h.1.bounds
    obtain ⟨hleast', hmost'⟩ := ih h.2
    rw [List.map_cons, List.sum_cons, List.length_cons]
    omega

theorem addsUpIn64Bits_of_isTimed {activities : List Activity} (h : ∀ a ∈ activities, a.IsTimed)
    (hlength : activities.length < 100000000000000) :
    AddsUpIn64Bits (activities.map Activity.seconds) := by
  intro front hfront
  obtain ⟨begun, hbegun, rfl⟩ := List.prefix_map_iff.mp hfront
  obtain ⟨hleast, hmost⟩ := sum_seconds_bounds fun a ha => h a (hbegun.subset ha)
  have hshorter := hbegun.length_le
  unfold FitsIn64Bits
  omega

theorem DailyLog.totalSeconds_eq_sum {log : DailyLog}
    (h : FitsIn64Bits (log.activities.map Activity.seconds).sum) :
    log.totalSeconds = (log.activities.map Activity.seconds).sum := by
  obtain ⟨hleast, hmost⟩ := h
  have htotal : log.activities.foldl (fun total activity => total + activity.seconds) 0 =
      (log.activities.map Activity.seconds).sum := by
    rw [List.sum_eq_foldl, List.foldl_map]
  unfold totalSeconds
  rw [htotal]
  apply Int.bmod_eq_of_le_mul_two
  · omega
  · omega

/-! ### The total of a day -/

/-- Whether the total of a day is the time from one time of day to another, but for whole days, and
    was counted without leaving 64 bits. -/
structure DailyLog.TotalsFrom (log : DailyLog) (start finish : TimeOfDay) : Prop where
  addsUp : AddsUpIn64Bits (log.activities.map Activity.seconds)
  eq_sum : log.totalSeconds = (log.activities.map Activity.seconds).sum
  nonneg : 0 ≤ log.totalSeconds
  most : log.totalSeconds ≤ 86399 * log.activities.length
  modEq : log.totalSeconds ≡ intervalSeconds start finish [ZMOD secondsPerDay]

theorem IsChainFrom.totalsFrom {start : TimeOfDay} {log : DailyLog}
    (h : IsChainFrom start log.activities) (htimed : ∀ a ∈ log.activities, a.IsTimed)
    (hlength : log.activities.length < 100000000000000) :
    log.TotalsFrom start (chainEnd start log.activities) := by
  have hadds := addsUpIn64Bits_of_isTimed htimed hlength
  have htotal := DailyLog.totalSeconds_eq_sum (hadds _ (List.prefix_refl _))
  obtain ⟨hleast, hmost⟩ := sum_seconds_bounds htimed
  rw [← htotal] at hleast hmost
  refine ⟨hadds, htotal, hleast, hmost, ?_⟩
  rw [htotal]
  exact h.sum_modEq htimed

end Daybook
