/-
  Daybook/Proofs/Json/Tokens.lean
  ===============================
  **Written strings and whole numbers are read back.**  Each character of a string
  is written in a form that reading takes for one character, and no form begins
  with the closing quotation mark.  A whole number is written without a zero in
  front, so that reading takes all of its digits.
-/
import Daybook.Json.Reader
import Daybook.Json.Writer
import Daybook.Proofs.Text.Decimal

namespace Daybook.Json

open Daybook.Text

/-! ### Characters of a string -/

theorem hexValue?_hexDigit (n : Nat) : hexValue? (hexDigit n) = some (n % 16) := by
  have hall : ∀ digit < 16, hexValue? (Nat.digitChar digit) = some digit := by decide
  exact hall (n % 16) (Nat.mod_lt n (by decide))

theorem takeCodePoint?_control {c : Char} (h : c.toNat < 0x20) (rest : List Char) :
    takeCodePoint? ('0' :: '0' :: hexDigit (c.toNat / 16) :: hexDigit c.toNat :: rest) =
      some (some c, rest) := by
  have hzero : hexValue? '0' = some 0 := by decide
  have hvalue : ((0 * 16 + 0) * 16 + c.toNat / 16 % 16) * 16 + c.toNat % 16 = c.toNat := by omega
  simp only [takeCodePoint?, takeHex?, hzero, hexValue?_hexDigit, Option.bind_eq_bind,
    Option.bind_some, Option.pure_def, hvalue]
  rw [if_neg (by omega), if_neg (by omega), Char.ofNat_toNat]

/-- **A written character is read as that character.** -/
theorem takeChar?_escapeChar (c : Char) (rest : List Char) :
    takeChar? (escapeChar c ++ rest) = some (some c, rest) := by
  unfold escapeChar
  split
  all_goals try rfl
  next hquote hslash _ _ _ _ _ =>
    split
    next hcontrol => exact takeCodePoint?_control hcontrol rest
    next hcontrol =>
      rw [List.singleton_append, takeChar?.eq_def]
      split
      next heq => cases heq
      next heq => exact absurd (List.cons.inj heq).1 hslash
      next heq => exact absurd (List.cons.inj heq).1 hslash
      next heq =>
        obtain ⟨rfl, rfl⟩ := List.cons.inj heq
        rw [if_neg]
        rintro (h | h)
        · exact hslash h
        · exact hcontrol h

/-- A written character does not begin like the end of a string. -/
theorem exists_escapeChar_eq_cons (c : Char) :
    ∃ first tail, escapeChar c = first :: tail ∧ first ≠ '"' := by
  unfold escapeChar
  split
  all_goals try exact ⟨_, _, rfl, by decide⟩
  next hquote _ _ _ _ _ _ =>
    split
    · exact ⟨_, _, rfl, by decide⟩
    · exact ⟨_, _, rfl, hquote⟩

/-! ### Items one by one -/

theorem mapM_map_eq_some {α β : Type} {encode : α → β} {decode : β → Option α} {items : List α}
    (h : ∀ item ∈ items, decode (encode item) = some item) :
    (items.map encode).mapM decode = some items := by
  induction items with
  | nil => rfl
  | cons item rest ih =>
    have hitem := h item List.mem_cons_self
    have hrest := ih fun other hother => h other (List.mem_cons_of_mem _ hother)
    simp [List.mapM_cons, hitem, hrest]

/-! ### Strings -/

theorem takeStringAfter?_escaped (text : List Char) (before : List (Option Char))
    (rest : List Char) {fuel : Nat} (hfuel : text.length < fuel) :
    takeStringAfter? fuel before (text.flatMap escapeChar ++ '"' :: rest) =
      some (((before.reverse ++ text.map some).mapM id).map String.ofList, rest) := by
  induction text generalizing before fuel with
  | nil =>
    cases fuel with
    | zero => cases hfuel
    | succ fuel => simp [takeStringAfter?]
  | cons c others ih =>
    cases fuel with
    | zero => cases hfuel
    | succ fuel =>
      have hread := takeChar?_escapeChar c (others.flatMap escapeChar ++ '"' :: rest)
      obtain ⟨first, tail, hc, hfirst⟩ := exists_escapeChar_eq_cons c
      rw [hc, List.cons_append] at hread
      rw [List.flatMap_cons, hc, List.append_assoc, List.cons_append, takeStringAfter?.eq_def]
      dsimp only
      split
      next heq => exact absurd (List.cons.inj heq).1 hfirst
      next =>
        rw [hread]
        dsimp only
        rw [ih (some c :: before) (by simpa using hfuel)]
        simp

theorem length_le_length_escaped (text : List Char) :
    text.length ≤ (text.flatMap escapeChar).length := by
  induction text with
  | nil => exact Nat.le_refl 0
  | cons c others ih =>
    obtain ⟨first, tail, hc, -⟩ := exists_escapeChar_eq_cons c
    rw [List.flatMap_cons, hc, List.length_append, List.length_cons, List.length_cons]
    omega

/-- **A written string is read back**, up to its closing quotation mark. -/
theorem takeString?_escaped (s : String) (rest : List Char) :
    takeString? (s.toList.flatMap escapeChar ++ '"' :: rest) = some (some s, rest) := by
  have hfuel : s.toList.length < (s.toList.flatMap escapeChar ++ '"' :: rest).length + 1 := by
    have hlength := length_le_length_escaped s.toList
    rw [List.length_append]
    omega
  have hread : (s.toList.map some).mapM id = some s.toList := mapM_map_eq_some fun _ _ => rfl
  rw [takeString?, takeStringAfter?_escaped s.toList [] rest hfuel, List.reverse_nil,
    List.nil_append, hread, Option.map_some, String.ofList_toList]

/-! ### Whole numbers -/

/-- Whether a number may end here: nothing goes on that could belong to it. -/
def EndsNumber (rest : List Char) : Prop :=
  ∀ c ∈ rest.head?, c.isDigit = false ∧ c ≠ '.' ∧ c ≠ 'e' ∧ c ≠ 'E'

theorem EndsNumber.endsDigits {rest : List Char} (h : EndsNumber rest) : EndsDigits rest := by
  intro c hc
  exact (h c hc).1

theorem takeFraction?_of_endsNumber {rest : List Char} (h : EndsNumber rest) :
    takeFraction? rest = some ([], rest) := by
  unfold takeFraction?
  split
  next => exact absurd rfl (h '.' rfl).2.1
  next => rfl

theorem takeExponent?_of_endsNumber {rest : List Char} (h : EndsNumber rest) :
    takeExponent? rest = some ([], rest) := by
  cases rest with
  | nil => rfl
  | cons c tail =>
    obtain ⟨-, -, hsmall, hlarge⟩ := h c rfl
    have hne : ¬ (c = 'e' ∨ c = 'E') := by simp [hsmall, hlarge]
    rw [takeExponent?.eq_def]
    dsimp only
    rw [if_neg hne]

theorem exists_digits_eq_cons {n : Nat} (h : 0 < n) :
    ∃ c tail, digits n = c :: tail ∧ c ≠ '0' ∧ c ≠ '-' := by
  induction n using Nat.strongRecOn with
  | _ n ih =>
    unfold digits at ih ⊢
    rw [Nat.toDigits_eq_if (by decide)]
    split
    next hlt =>
      have hall : ∀ digit < 10, 0 < digit →
          Nat.digitChar digit ≠ '0' ∧ Nat.digitChar digit ≠ '-' := by
        decide
      exact ⟨_, [], rfl, hall n hlt h⟩
    next hge =>
      obtain ⟨c, tail, hfirst, hc⟩ := ih (n / 10) (by omega) (by omega)
      exact ⟨c, tail ++ [Nat.digitChar (n % 10)], by rw [hfirst, List.cons_append], hc⟩

section

variable {rest : List Char} (h : EndsNumber rest)
include h

/-- The digits of a positive number are spanned to the last and have its value, and they begin with
    neither a zero nor a sign. -/
theorem exists_spanDigits_digits {n : Nat} (hn : 0 < n) :
    ∃ c tail, digits n = c :: tail ∧ c ≠ '0' ∧ c ≠ '-' ∧ digitsValue (c :: tail) = n ∧
      spanDigits (c :: (tail ++ rest)) = (c :: tail, rest) := by
  obtain ⟨c, tail, hdigits, hzero, hminus⟩ := exists_digits_eq_cons hn
  refine ⟨c, tail, hdigits, hzero, hminus, ?_, ?_⟩
  · rw [← hdigits]
    exact digitsValue_digits n
  · rw [← List.cons_append, ← hdigits]
    unfold spanDigits
    rw [takeWhile_digits_append (fun c => isDigit_of_mem_digits) h.endsDigits,
      dropWhile_digits_append (fun c => isDigit_of_mem_digits) h.endsDigits]

theorem takeNumber?_zero : takeNumber? ('0' :: rest) = some (.integer 0, rest) := by
  simp [takeNumber?, takeFraction?_of_endsNumber h, takeExponent?_of_endsNumber h,
    show digitsValue ['0'] = 0 by decide]

theorem takeNumber?_positive {n : Nat} (hn : 0 < n) :
    takeNumber? (digits n ++ rest) = some (.integer n, rest) := by
  obtain ⟨c, tail, hdigits, hzero, hminus, hvalue, hspan⟩ := exists_spanDigits_digits h hn
  rw [hdigits, List.cons_append]
  simp [takeNumber?, hzero, hminus, hspan, hvalue, takeFraction?_of_endsNumber h,
    takeExponent?_of_endsNumber h]

theorem takeNumber?_negative {n : Nat} (hn : 0 < n) :
    takeNumber? ('-' :: (digits n ++ rest)) = some (.integer (-n), rest) := by
  obtain ⟨c, tail, hdigits, hzero, -, hvalue, hspan⟩ := exists_spanDigits_digits h hn
  rw [hdigits, List.cons_append]
  simp [takeNumber?, hzero, hspan, hvalue, takeFraction?_of_endsNumber h,
    takeExponent?_of_endsNumber h]

/-- **A written whole number is read back.** -/
theorem takeNumber?_integer (n : Int) :
    takeNumber? ((toString n).toList ++ rest) = some (.integer n, rest) := by
  rw [Int.toString_eq_repr, Int.repr_eq_if]
  split
  next hnonneg =>
    rw [Nat.toList_repr]
    cases Nat.eq_zero_or_pos n.toNat with
    | inl hzero =>
      obtain rfl : n = 0 := by omega
      exact takeNumber?_zero h
    | inr hpos =>
      have hread := takeNumber?_positive h hpos
      rw [Int.toNat_of_nonneg hnonneg] at hread
      exact hread
  next hneg =>
    have hread := takeNumber?_negative h (n := (-n).toNat) (by omega)
    have hvalue : -((-n).toNat : Int) = n := by omega
    rw [hvalue] at hread
    rw [String.toList_append, Nat.toList_repr]
    exact hread

end

end Daybook.Json
