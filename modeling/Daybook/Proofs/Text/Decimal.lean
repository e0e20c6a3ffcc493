/-
  Daybook/Proofs/Text/Decimal.lean
  ================================
  **A numeral is read as the number that it was written for.**  Written digits are
  digits and nothing else, and have the value of the number, with zeros in front or
  without; filled up to one width they stand in the order of the numbers
  (`padded_append_lt`).  Where no blank stands in front and no digit follows, reading
  takes just them.
-/
import Daybook.Text.Decimal
import Daybook.Text.Parts
import Mathlib.Algebra.Ring.Nat
import Mathlib.Data.List.Induction

namespace Daybook.Text

/-! ### Written digits -/

theorem digits_ne_nil (n : Nat) : digits n ≠ [] := Nat.toDigits_ne_nil

theorem isDigit_of_mem_digits {n : Nat} {c : Char} (h : c ∈ digits n) : c.isDigit = true :=
  Nat.isDigit_of_mem_toDigits (by decide) (by decide) h

@[simp] theorem digitsValue_digits (n : Nat) : digitsValue (digits n) = n :=
  Nat.ofDigitChars_ten_toDigits

theorem isDigit_of_mem_padded {width n : Nat} {c : Char} (h : c ∈ padded width n) :
    c.isDigit = true := by
  rcases List.mem_append.mp h with hzero | hdigit
  · rw [List.eq_of_mem_replicate hzero]
    decide
  · exact isDigit_of_mem_digits hdigit

theorem padded_ne_nil (width n : Nat) : padded width n ≠ [] :=
  List.append_ne_nil_of_right_ne_nil _ (digits_ne_nil n)

@[simp] theorem digitsValue_padded (width n : Nat) : digitsValue (padded width n) = n := by
  unfold digitsValue padded
  rw [Nat.ofDigitChars_append, Nat.ofDigitChars_replicate_zero, Nat.mul_zero]
  exact digitsValue_digits n

theorem length_padded {width n : Nat} (hwidth : 0 < width) (h : n < 10 ^ width) :
    (padded width n).length = width := by
  have hle : (digits n).length ≤ width :=
    (Nat.length_toDigits_le_iff (by decide) hwidth).mpr h
  simp only [padded, List.length_append, List.length_replicate]
  omega

/-! ### Digits of a given number -/

theorem digitsValue_append_singleton (ds : List Char) (d : Char) :
    digitsValue (ds ++ [d]) = 10 * digitsValue ds + (d.toNat - 48) := by
  unfold digitsValue
  rw [Nat.ofDigitChars_append, Nat.ofDigitChars_cons]
  rfl

/-- Texts of digits of one length have different values. -/
theorem eq_of_digitsValue_eq {xs ys : List Char} (hxs : ∀ c ∈ xs, c.isDigit = true)
    (hys : ∀ c ∈ ys, c.isDigit = true) (hlength : xs.length = ys.length)
    (h : digitsValue xs = digitsValue ys) : xs = ys := by
  induction xs using List.reverseRecOn generalizing ys with
  | nil => exact (List.eq_nil_of_length_eq_zero hlength.symm).symm
  | append_singleton xs x ih =>
    cases ys using List.reverseRecOn with
    | nil => simp at hlength
    | append_singleton ys y =>
      have hx : 48 ≤ x.toNat ∧ x.toNat ≤ 57 := Char.isDigit_iff_toNat.mp (hxs x (by simp))
      have hy : 48 ≤ y.toNat ∧ y.toNat ≤ 57 := Char.isDigit_iff_toNat.mp (hys y (by simp))
      simp only [digitsValue_append_singleton] at h
      have hdigit : x = y := Char.toNat_inj.mp (by omega)
      have hfront : xs = ys := by
        apply ih (fun c hc => hxs c (List.mem_append_left _ hc))
          (fun c hc => hys c (List.mem_append_left _ hc))
        · simpa using hlength
        · omega
      rw [hdigit, hfront]

/-- Digits are those that their value is written with. -/
theorem padded_digitsValue {ds : List Char} {width : Nat} (hwidth : 0 < width)
    (hds : ∀ c ∈ ds, c.isDigit = true) (hlength : ds.length = width)
    (h : digitsValue ds < 10 ^ width) : padded width (digitsValue ds) = ds := by
  apply eq_of_digitsValue_eq (fun c => isDigit_of_mem_padded) hds
  · rw [length_padded hwidth h, hlength]
  · exact digitsValue_padded width _

/-! ### Order -/

/-- A number with more in front has more with as many digits behind, whatever they are. -/
theorem ofDigitChars_lt {xs ys : List Char} (hxs : ∀ c ∈ xs, c.isDigit = true)
    (hys : ∀ c ∈ ys, c.isDigit = true) (hlength : xs.length = ys.length) {m n : Nat}
    (h : m < n) : Nat.ofDigitChars 10 xs m < Nat.ofDigitChars 10 ys n := by
  induction xs generalizing ys m n with
  | nil =>
    obtain rfl := List.eq_nil_of_length_eq_zero hlength.symm
    exact h
  | cons x xs ih =>
    cases ys with
    | nil => cases hlength
    | cons y ys =>
      rw [List.forall_mem_cons] at hxs hys
      have hx : 48 ≤ x.toNat ∧ x.toNat ≤ 57 := Char.isDigit_iff_toNat.mp hxs.1
      rw [Nat.ofDigitChars_cons, Nat.ofDigitChars_cons]
      apply ih hxs.2 hys.2 (Nat.succ.inj hlength)
      have hzero : '0'.toNat = 48 := rfl
      omega

/-- **Of two texts of as many digits the one with the smaller value comes first**, whatever
    follows them. -/
theorem append_lt_append_of_ofDigitChars_lt {xs ys : List Char}
    (hxs : ∀ c ∈ xs, c.isDigit = true) (hys : ∀ c ∈ ys, c.isDigit = true)
    (hlength : xs.length = ys.length) {n : Nat}
    (h : Nat.ofDigitChars 10 xs n < Nat.ofDigitChars 10 ys n) (s t : List Char) :
    xs ++ s < ys ++ t := by
  induction xs generalizing ys n with
  | nil =>
    obtain rfl := List.eq_nil_of_length_eq_zero hlength.symm
    exact absurd h (Nat.lt_irrefl _)
  | cons x xs ih =>
    cases ys with
    | nil => cases hlength
    | cons y ys =>
      have hrest := Nat.succ.inj hlength
      rw [List.forall_mem_cons] at hxs hys
      have hx : 48 ≤ x.toNat ∧ x.toNat ≤ 57 := Char.isDigit_iff_toNat.mp hxs.1
      have hy : 48 ≤ y.toNat ∧ y.toNat ≤ 57 := Char.isDigit_iff_toNat.mp hys.1
      have hzero : '0'.toNat = 48 := rfl
      rw [Nat.ofDigitChars_cons, Nat.ofDigitChars_cons] at h
      rw [List.cons_append, List.cons_append, List.cons_lt_cons_iff]
      rcases Nat.lt_trichotomy x.toNat y.toNat with hlt | heq | hgt
      · exact .inl hlt
      · rw [heq] at h
        exact .inr ⟨Char.toNat_inj.mp heq, ih hxs.2 hys.2 hrest h⟩
      · have hback := ofDigitChars_lt hys.2 hxs.2 hrest.symm
          (show 10 * n + (y.toNat - '0'.toNat) < 10 * n + (x.toNat - '0'.toNat) by omega)
        exact absurd h (Nat.not_lt.mpr (Nat.le_of_lt hback))

theorem padded_append_lt {width m n : Nat} (hwidth : 0 < width) (hn : n < 10 ^ width)
    (h : m < n) (s t : List Char) : padded width m ++ s < padded width n ++ t := by
  apply append_lt_append_of_ofDigitChars_lt (fun c => isDigit_of_mem_padded)
    (fun c => isDigit_of_mem_padded)
  · rw [length_padded hwidth (Nat.lt_trans h hn), length_padded hwidth hn]
  · have hvalue : digitsValue (padded width m) < digitsValue (padded width n) := by
      rw [digitsValue_padded, digitsValue_padded]
      exact h
    exact hvalue

/-! ### Nothing to trim -/

theorem isBlank_of_isDigit {c : Char} (h : c.isDigit = true) : isBlank c = false := by
  have hrange : 48 ≤ c.toNat ∧ c.toNat ≤ 57 := Char.isDigit_iff_toNat.mp h
  cases hblank : isBlank c with
  | false => rfl
  | true =>
    simp only [isBlank, blankRanges, List.any_cons, List.any_nil, Bool.or_eq_true,
      Bool.and_eq_true, decide_eq_true_eq, Bool.false_eq_true, or_false] at hblank
    omega

theorem trimStart_cons {c : Char} (h : isBlank c = false) (rest : List Char) :
    trimStart (c :: rest) = c :: rest :=
  List.dropWhile_cons_of_neg (by simp [h])

theorem trimStart_padded (width n : Nat) (rest : List Char) :
    trimStart (padded width n ++ rest) = padded width n ++ rest := by
  cases hpadded : padded width n with
  | nil => exact absurd hpadded (padded_ne_nil width n)
  | cons c tail =>
    have hc : c.isDigit = true := isDigit_of_mem_padded (hpadded ▸ List.mem_cons_self)
    exact trimStart_cons (isBlank_of_isDigit hc) _

/-! ### Reading stops -/

/-- Whether no digit stands at the front. -/
def EndsDigits (rest : List Char) : Prop := ∀ c ∈ rest.head?, c.isDigit = false

theorem endsDigits_nil : EndsDigits [] := by
  intro c hc
  cases hc

theorem endsDigits_cons {c : Char} (h : c.isDigit = false) (rest : List Char) :
    EndsDigits (c :: rest) := by
  intro d hd
  obtain rfl : c = d := by simpa using hd
  exact h

theorem EndsDigits.takeWhile_eq_nil {rest : List Char} (h : EndsDigits rest) :
    rest.takeWhile Char.isDigit = [] := by
  cases rest with
  | nil => rfl
  | cons c tail => exact List.takeWhile_cons_of_neg (by simp [h c rfl])

theorem EndsDigits.dropWhile_eq_self {rest : List Char} (h : EndsDigits rest) :
    rest.dropWhile Char.isDigit = rest := by
  cases rest with
  | nil => rfl
  | cons c tail => exact List.dropWhile_cons_of_neg (by simp [h c rfl])

theorem EndsDigits.take {rest : List Char} (h : EndsDigits rest) (k : Nat) :
    EndsDigits (rest.take k) := by
  intro c hc
  cases k with
  | zero => cases hc
  | succ k =>
    cases rest with
    | nil => cases hc
    | cons d tail => exact h c hc

section

variable {run rest : List Char} (hrun : ∀ c ∈ run, c.isDigit = true) (hrest : EndsDigits rest)
include hrun hrest

theorem takeWhile_digits_append : (run ++ rest).takeWhile Char.isDigit = run := by
  rw [List.takeWhile_append_of_pos hrun, hrest.takeWhile_eq_nil, List.append_nil]

theorem dropWhile_digits_append : (run ++ rest).dropWhile Char.isDigit = rest := by
  rw [List.dropWhile_append_of_pos hrun, hrest.dropWhile_eq_self]

/-- **A run of digits is read, and reading stops behind it.** -/
theorem takeNumber?_append (hne : run ≠ []) {most : Nat} (hmost : run.length ≤ most) :
    takeNumber? most (run ++ rest) = some (digitsValue run, rest) := by
  have htake : (run ++ rest).take most = run ++ rest.take (most - run.length) := by
    rw [List.take_append, List.take_of_length_le hmost]
  have hfront : ((run ++ rest).take most).takeWhile Char.isDigit = run := by
    rw [htake]
    exact takeWhile_digits_append hrun (hrest.take _)
  unfold takeNumber?
  dsimp only
  rw [hfront, if_neg (by simpa using hne), List.drop_left]

end

theorem takeNumber?_padded {width n : Nat} (hwidth : 0 < width) (h : n < 10 ^ width)
    {rest : List Char} (hrest : EndsDigits rest) :
    takeNumber? width (padded width n ++ rest) = some (n, rest) := by
  have hread := takeNumber?_append (fun c => isDigit_of_mem_padded) hrest (padded_ne_nil width n)
    (Nat.le_of_eq (length_padded hwidth h))
  rw [digitsValue_padded] at hread
  exact hread

theorem takeLongNumber?_padded (width n : Nat) {rest : List Char} (hrest : EndsDigits rest) :
    takeLongNumber? (padded width n ++ rest) = some (n, rest) := by
  have hle : (padded width n).length ≤ (padded width n ++ rest).length := by simp
  have hread := takeNumber?_append (fun c => isDigit_of_mem_padded) hrest (padded_ne_nil width n)
    hle
  rw [digitsValue_padded] at hread
  exact hread

end Daybook.Text
