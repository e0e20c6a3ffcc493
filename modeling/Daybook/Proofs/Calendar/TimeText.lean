/-
  Daybook/Proofs/Calendar/TimeText.lean
  =====================================
  **A written time of day is read back** (`read?_chars`), with all nine digits of
  its nanoseconds and with the second 60: what a shorter fraction leaves out are
  zeros.
-/
import Daybook.Calendar.TimeOfDay
import Daybook.Proofs.Calendar.DateText

namespace Daybook.TimeOfDay

open Daybook.Text

theorem ofParts?_eq_some (t : TimeOfDay) :
    ofParts? t.hour t.minute t.second t.nanosecond = some t :=
  dif_pos t.valid

/-! ### Fractions -/

theorem endsDigits_fractionText (nanosecond : Nat) : EndsDigits (fractionText nanosecond) := by
  have hpoint (rest : List Char) : EndsDigits ('.' :: rest) := endsDigits_cons (by decide) rest
  unfold fractionText
  split
  · exact endsDigits_nil
  · split
    · exact hpoint _
    · split
      · exact hpoint _
      · exact hpoint _

/-- Digits behind the point are filled up with zeros to nanoseconds. -/
theorem takeFraction?_padded {width n : Nat} (hwidth : 0 < width) (hnine : width ≤ 9)
    (h : n < 10 ^ width) :
    takeFraction? ('.' :: padded width n) = some (10 ^ (9 - width) * n, []) := by
  have hlength := length_padded hwidth h
  have hrun : (padded width n).takeWhile Char.isDigit = padded width n := by
    have hall := takeWhile_digits_append (fun c (hc : c ∈ padded width n) =>
      isDigit_of_mem_padded hc) endsDigits_nil
    rw [List.append_nil] at hall
    exact hall
  have hkept : (padded width n).take 9 = padded width n :=
    List.take_of_length_le (by omega)
  have hvalue : digitsValue (padded width n ++ List.replicate (9 - width) '0') =
      10 ^ (9 - width) * n := by
    unfold digitsValue
    rw [Nat.ofDigitChars_append, Nat.ofDigitChars_replicate_zero]
    exact congrArg _ (digitsValue_padded width n)
  simp only [takeFraction?, hrun, hkept, hlength, hvalue, List.isEmpty_iff, padded_ne_nil,
    if_false]
  simp [hlength]

theorem takeFraction?_fractionText {nanosecond : Nat} (h : nanosecond < 1000000000) :
    takeFraction? (fractionText nanosecond) = some (nanosecond, []) := by
  unfold fractionText
  split
  next hzero =>
    rw [hzero]
    rfl
  next =>
    split
    next hmilli =>
      rw [takeFraction?_padded (by decide) (by decide) (by omega)]
      congr
      omega
    next =>
      split
      next hmicro =>
        rw [takeFraction?_padded (by decide) (by decide) (by omega)]
        congr
        omega
      next =>
        rw [takeFraction?_padded (by decide) (by decide) (by omega)]
        congr
        omega

/-! ### Times -/

theorem takeColon?_cons (rest : List Char) : takeColon? (':' :: rest) = some rest := by
  rw [takeColon?, trimStart_cons (by decide)]
  rfl

/-- **A written time of day is read back.** -/
theorem read?_chars (t : TimeOfDay) : read? t.chars = some t := by
  obtain ⟨hhour, hminute, hsecond, hnanosecond⟩ := t.valid
  have hcolon (rest : List Char) : EndsDigits (':' :: rest) := endsDigits_cons (by decide) rest
  have hnotBlank (rest : List Char) : isBlankText (':' :: rest) = false := by
    simp [isBlankText, show isBlank ':' = false by decide]
  have hchars : t.chars =
      padded 2 t.hour ++ ':' :: (padded 2 t.minute ++ ':' ::
        (padded 2 t.second ++ fractionText t.nanosecond)) := by
    simp [chars]
  rw [hchars, read?]
  simp only [takeColon?_cons, trimStart_padded, hnotBlank,
    takeNumber?_padded (by decide : 0 < 2) (by omega : t.hour < 10 ^ 2) (hcolon _),
    takeNumber?_padded (by decide : 0 < 2) (by omega : t.minute < 10 ^ 2) (hcolon _),
    takeNumber?_padded (by decide : 0 < 2) (by omega : t.second < 10 ^ 2)
      (endsDigits_fractionText _),
    takeFraction?_fractionText hnanosecond, Option.bind_eq_bind, Option.bind_some]
  exact t.ofParts?_eq_some

/-! ### Four digits -/

/-- Whether a time is a minute of the day. -/
def IsMinute (t : TimeOfDay) : Prop := t.second = 0 ∧ t.nanosecond = 0

/-- The hour and the minute in four digits. -/
def hhmm (t : TimeOfDay) : List Char := padded 2 t.hour ++ padded 2 t.minute

theorem length_hour (t : TimeOfDay) : (padded 2 t.hour).length = 2 := by
  obtain ⟨hhour, -⟩ := t.valid
  exact length_padded (by decide) (by omega)

theorem length_minute (t : TimeOfDay) : (padded 2 t.minute).length = 2 := by
  obtain ⟨-, hminute, -⟩ := t.valid
  exact length_padded (by decide) (by omega)

@[simp] theorem length_hhmm (t : TimeOfDay) : t.hhmm.length = 4 := by
  rw [hhmm, List.length_append, length_hour, length_minute]

theorem isDigit_of_mem_hhmm {t : TimeOfDay} {c : Char} (h : c ∈ t.hhmm) : c.isDigit = true := by
  rcases List.mem_append.mp h with h | h <;> exact isDigit_of_mem_padded h

/-- **Four digits are read as the minute that they were written for**, and nothing else is. -/
theorem ofHHMM?_eq_some_iff {cs : List Char} {t : TimeOfDay} :
    ofHHMM? cs = some t ↔ t.IsMinute ∧ cs = t.hhmm := by
  unfold ofHHMM?
  constructor
  · intro h
    split at h
    next hdigits =>
      obtain ⟨hlength, hall⟩ := hdigits
      obtain ⟨hvalid, htime⟩ := Option.dite_none_right_eq_some.mp h
      have hhour : digitsValue (cs.take 2) < 24 := hvalid.1
      have hminute : digitsValue (cs.drop 2) < 60 := hvalid.2.1
      obtain rfl := Option.some.inj htime
      have hcs : ∀ c ∈ cs, c.isDigit = true := List.all_eq_true.mp hall
      have htake : padded 2 (digitsValue (cs.take 2)) = cs.take 2 :=
        padded_digitsValue (by decide) (fun c hc => hcs c (List.mem_of_mem_take hc))
          (by rw [List.length_take]; omega) (by omega)
      have hdrop : padded 2 (digitsValue (cs.drop 2)) = cs.drop 2 :=
        padded_digitsValue (by decide) (fun c hc => hcs c (List.mem_of_mem_drop hc))
          (by rw [List.length_drop]; omega) (by omega)
      refine ⟨⟨rfl, rfl⟩, ?_⟩
      rw [hhmm, htake, hdrop, List.take_append_drop]
    next => cases h
  · rintro ⟨⟨hsecond, hnanosecond⟩, rfl⟩
    have hdigits : t.hhmm.length = 4 ∧ t.hhmm.all Char.isDigit = true :=
      ⟨t.length_hhmm, List.all_eq_true.mpr fun c hc => isDigit_of_mem_hhmm hc⟩
    have hread := t.ofParts?_eq_some
    rw [hsecond, hnanosecond] at hread
    rw [if_pos hdigits, hhmm, List.take_left' t.length_hour, List.drop_left' t.length_hour,
      digitsValue_padded, digitsValue_padded]
    exact hread

end Daybook.TimeOfDay
