/-
  Daybook/Proofs/Calendar/Date.lean
  =================================
  **Neighbouring days.**  `Follows` says with the parts of two dates that one is
  the day after the other: the next day of a month, the first day of the next
  month, or new year's day.  Stepping forward finds the date that follows
  (`succ?_eq_some_iff`), stepping back the one that is followed
  (`pred?_eq_some_iff`), so each undoes the other (`pred?_eq_some_iff_succ?`).
-/
import Daybook.Calendar.Date

namespace Daybook

namespace Date

theorem ofYMD?_eq_some_iff {year : Int} {month day : Nat} {d : Date} :
    ofYMD? year month day = some d ↔ d.year = year ∧ d.month = month ∧ d.day = day := by
  unfold ofYMD?
  constructor
  · intro h
    split at h
    · obtain rfl := Option.some.inj h
      exact ⟨rfl, rfl, rfl⟩
    · cases h
  · rintro ⟨rfl, rfl, rfl⟩
    rw [dif_pos d.valid]

theorem ofYMD?_eq_none_iff {year : Int} {month day : Nat} :
    ofYMD? year month day = none ↔ ¬IsDate year month day := by
  unfold ofYMD?
  split
  next h => simp [h]
  next h => simp [h]

/-- Whether a date is the day after another. -/
def Follows (d next : Date) : Prop :=
  (next.year = d.year ∧ next.month = d.month ∧ next.day = d.day + 1) ∨
    (next.year = d.year ∧ next.month = d.month + 1 ∧ next.day = 1 ∧
      d.day = monthLength d.year d.month) ∨
    (next.year = d.year + 1 ∧ next.month = 1 ∧ next.day = 1 ∧ d.month = 12 ∧ d.day = 31)

theorem day_le (d : Date) : d.day ≤ monthLength d.year d.month := d.valid.2.2.2.2.2

theorem monthLength_pos (year : Int) (month : Nat) : 1 ≤ monthLength year month := by
  unfold monthLength
  split
  · split <;> decide
  all_goals decide

theorem monthLength_le (year : Int) (month : Nat) : monthLength year month ≤ 31 := by
  unfold monthLength
  split
  · split <;> decide
  all_goals decide

theorem monthLength_of_december {d : Date} (h : d.month = 12) :
    monthLength d.year d.month = 31 := by
  rw [h]
  rfl

theorem succ?_eq_some_iff {d next : Date} : d.succ? = some next ↔ d.Follows next := by
  have hday := d.day_le
  have hdecember : d.month = 12 → monthLength d.year d.month = 31 := monthLength_of_december
  obtain ⟨-, -, -, hmonth, -, -⟩ := d.valid
  obtain ⟨-, -, -, hnext, -, -⟩ := next.valid
  unfold succ? Follows
  split
  next hlt =>
    rw [ofYMD?_eq_some_iff]
    omega
  next hlt =>
    have hend : d.day = monthLength d.year d.month := by omega
    have hnextDay : next.year = d.year → next.month = d.month → next.day ≤ d.day := by
      intro hyear hsame
      rw [hend, ← hyear, ← hsame]
      exact next.day_le
    split
    next hbefore =>
      rw [ofYMD?_eq_some_iff]
      omega
    next hbefore =>
      have hlast : d.day = 31 := by omega
      rw [ofYMD?_eq_some_iff]
      omega

theorem pred?_eq_some_iff {d next : Date} : next.pred? = some d ↔ d.Follows next := by
  obtain ⟨-, -, hmonth, hmonth', hday, -⟩ := d.valid
  obtain ⟨-, -, hnext, -, hnextDay, -⟩ := next.valid
  unfold pred? Follows
  split
  next hlater =>
    rw [ofYMD?_eq_some_iff]
    omega
  next hlater =>
    have hfirst : next.day = 1 := by omega
    split
    next hlaterMonth =>
      rw [ofYMD?_eq_some_iff]
      constructor
      · rintro ⟨hyear, hm, hd⟩
        refine .inr (.inl ⟨hyear.symm, by omega, hfirst, ?_⟩)
        rw [hyear, hm, hd]
      · rintro (h | ⟨hyear, hm, -, hd⟩ | h)
        · omega
        · have hm' : next.month - 1 = d.month := by omega
          refine ⟨hyear.symm, hm'.symm, ?_⟩
          rw [hyear, hm', hd]
        · omega
    next hlaterMonth =>
      rw [ofYMD?_eq_some_iff]
      omega

/-- **Stepping back undoes stepping forward**, and the other way. -/
theorem pred?_eq_some_iff_succ? {d next : Date} : next.pred? = some d ↔ d.succ? = some next := by
  rw [pred?_eq_some_iff, succ?_eq_some_iff]

end Date

end Daybook
