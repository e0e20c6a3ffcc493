/-
  Daybook/Proofs/Calendar/DateText.lean
  =====================================
  **A written date is read back** (`read?_chars`), whatever its year: one of four
  digits is read up to the fourth, and any other has a sign, behind which all
  digits are read.
-/
import Daybook.Calendar.DateText
import Daybook.Proofs.Calendar.Date
import Daybook.Proofs.Text.Decimal

namespace Daybook

namespace Date

open Daybook.Text

theorem trimStart_yearText (year : Int) (rest : List Char) :
    trimStart (yearText year ++ rest) = yearText year ++ rest := by
  unfold yearText
  split
  · exact trimStart_padded 4 _ rest
  · split
    · exact trimStart_cons (by decide) _
    · exact trimStart_cons (by decide) _

theorem takeYear?_padded {n : Nat} (h : n < 10000) {rest : List Char} (hrest : EndsDigits rest) :
    takeYear? (padded 4 n ++ rest) = some ((n : Int), rest) := by
  have hread := takeNumber?_padded (by decide : 0 < 4) h hrest
  cases hpadded : padded 4 n with
  | nil => exact absurd hpadded (padded_ne_nil 4 n)
  | cons c tail =>
    have hc : c.isDigit = true := isDigit_of_mem_padded (hpadded ▸ List.mem_cons_self)
    rw [hpadded] at hread
    unfold takeYear?
    split
    next heq =>
      obtain ⟨rfl, -⟩ := List.cons.inj heq
      exact absurd hc (by decide)
    next heq =>
      obtain ⟨rfl, -⟩ := List.cons.inj heq
      exact absurd hc (by decide)
    next => rw [hread, Option.map_some]

theorem takeYear?_yearText (year : Int) {rest : List Char} (hrest : EndsDigits rest) :
    takeYear? (yearText year ++ rest) = some (year, rest) := by
  unfold yearText
  split
  next h =>
    rw [takeYear?_padded (by omega) hrest]
    congr
    omega
  next h =>
    split
    next hneg =>
      simp only [List.cons_append, takeYear?, takeLongNumber?_padded 4 _ hrest, Option.map_some]
      congr
      omega
    next hpos =>
      simp only [List.cons_append, takeYear?, takeLongNumber?_padded 4 _ hrest, Option.map_some]
      congr
      omega

theorem takeHyphen?_cons (rest : List Char) : takeHyphen? ('-' :: rest) = some rest := by
  rw [takeHyphen?, trimStart_cons (by decide)]
  rfl

/-- **A written date is read back.** -/
theorem read?_chars (d : Date) : read? d.chars = some d := by
  have hhyphen (rest : List Char) : EndsDigits ('-' :: rest) := endsDigits_cons (by decide) rest
  obtain ⟨-, -, -, hmonth, -, hday⟩ := d.valid
  have hlength : d.day < 10 ^ 2 := by
    have := monthLength_le d.year d.month
    omega
  have hchars : d.chars =
      yearText d.year ++ '-' :: (padded 2 d.month ++ '-' :: (padded 2 d.day ++ [])) := by
    simp [chars]
  rw [hchars, read?, trimStart_yearText]
  simp only [takeYear?_yearText d.year (hhyphen _), takeHyphen?_cons, trimStart_padded,
    takeNumber?_padded (by decide : 0 < 2) (by omega : d.month < 10 ^ 2) (hhyphen _),
    takeNumber?_padded (by decide : 0 < 2) hlength endsDigits_nil, Option.bind_eq_bind,
    Option.bind_some, isBlankText, List.all_nil, if_true]
  exact ofYMD?_eq_some_iff.mpr ⟨rfl, rfl, rfl⟩

end Date

end Daybook
