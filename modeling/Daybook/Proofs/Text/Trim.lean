/-
  Daybook/Proofs/Text/Trim.lean
  =============================
  **Trimming twice is trimming once.**  What `trim` leaves has no blank at either
  end: its first character is the one at which dropping from the front stopped,
  and dropping from the end keeps it.
-/
import Daybook.Text.Parts
import Mathlib.Data.List.DropRight

namespace Daybook.Text

theorem trimEnd_eq_rdropWhile (cs : List Char) : trimEnd cs = cs.rdropWhile isBlank := rfl

/-- Dropping from the end leaves a text that begins where the text did, if it leaves anything. -/
theorem trimStart_trimEnd {cs : List Char} (h : trimStart cs = cs) :
    trimStart (trimEnd cs) = trimEnd cs := by
  rw [trimEnd_eq_rdropWhile]
  cases hend : cs.rdropWhile isBlank with
  | nil => rfl
  | cons c rest =>
    have hprefix : c :: rest <+: cs := hend ▸ List.rdropWhile_prefix isBlank cs
    obtain ⟨tail, rfl⟩ := hprefix
    have hc : ¬ isBlank c = true := by
      intro hblank
      have hshort := congrArg List.length h
      simp only [trimStart, List.cons_append, List.dropWhile_cons_of_pos hblank,
        List.length_cons] at hshort
      have hle := (List.dropWhile_sublist isBlank (l := rest ++ tail)).length_le
      omega
    exact List.dropWhile_cons_of_neg hc

@[simp] theorem trim_trim (cs : List Char) : trim (trim cs) = trim cs := by
  have hstart : trimStart (trimStart cs) = trimStart cs := List.dropWhile_idempotent isBlank _
  unfold trim
  rw [trimStart_trimEnd hstart, trimEnd_eq_rdropWhile, trimEnd_eq_rdropWhile]
  exact List.rdropWhile_idempotent isBlank _

/-! ### What is taken away -/

theorem exists_append_trimStart (cs : List Char) :
    ∃ blanks, cs = blanks ++ trimStart cs ∧ ∀ c ∈ blanks, isBlank c = true :=
  ⟨cs.takeWhile isBlank, List.takeWhile_append_dropWhile.symm,
    fun _ hc => List.mem_takeWhile_imp hc⟩

theorem exists_trimEnd_append (cs : List Char) :
    ∃ blanks, cs = trimEnd cs ++ blanks ∧ ∀ c ∈ blanks, isBlank c = true := by
  obtain ⟨blanks, hcut, hblanks⟩ := exists_append_trimStart cs.reverse
  refine ⟨blanks.reverse, ?_, fun c hc => hblanks c (List.mem_reverse.mp hc)⟩
  have hrev := congrArg List.reverse hcut
  rwa [List.reverse_reverse, List.reverse_append] at hrev

theorem trimStart_append_of_blank {blanks : List Char} (h : ∀ c ∈ blanks, isBlank c = true)
    (rest : List Char) : trimStart (blanks ++ rest) = trimStart rest :=
  List.dropWhile_append_of_pos h

theorem isBlank_of_trimStart_eq_cons {cs : List Char} {c : Char} {rest : List Char}
    (h : trimStart cs = c :: rest) : isBlank c = false := by
  have hagain : trimStart (trimStart cs) = trimStart cs := List.dropWhile_idempotent isBlank _
  rw [h] at hagain
  have hfirst := List.dropWhile_eq_self_iff.mp hagain (by simp)
  simpa using hfirst

theorem trimEnd_eq_nil_iff {cs : List Char} : trimEnd cs = [] ↔ ∀ c ∈ cs, isBlank c = true := by
  rw [trimEnd_eq_rdropWhile, List.rdropWhile_eq_nil_iff]

theorem trim_eq_nil_iff {cs : List Char} : trim cs = [] ↔ ∀ c ∈ cs, isBlank c = true := by
  rw [trim, trimEnd_eq_nil_iff]
  constructor
  · intro h c hc
    obtain ⟨blanks, hcut, hblanks⟩ := exists_append_trimStart cs
    rw [hcut] at hc
    rcases List.mem_append.mp hc with hc | hc
    · exact hblanks c hc
    · exact h c hc
  · intro h c hc
    exact h c ((List.dropWhile_sublist _).mem hc)

/-- What trimming takes from the end it takes from the last part, if that is not blank. -/
theorem trimEnd_append (xs ys : List Char) :
    trimEnd (xs ++ ys) = if trimEnd ys = [] then trimEnd xs else xs ++ trimEnd ys := by
  have hblank : trimEnd ys = [] ↔ (ys.reverse.dropWhile isBlank).isEmpty = true := by
    rw [trimEnd, List.reverse_eq_nil_iff, List.isEmpty_iff]
  simp only [hblank]
  simp only [trimEnd, List.reverse_append, List.dropWhile_append]
  split
  · rfl
  · rw [List.reverse_append, List.reverse_reverse]

/-! ### Trimmed texts -/

/-- A text that trimming leaves as it is has no blank in front. -/
theorem trimStart_of_trim {cs : List Char} (h : trim cs = cs) : trimStart cs = cs := by
  have hsuffix : trimStart cs <:+ cs := List.dropWhile_suffix _
  have hprefix : trim cs <+: trimStart cs := List.rdropWhile_prefix _ _
  rw [h] at hprefix
  exact hsuffix.eq_of_length_le hprefix.length_le

theorem isBlank_of_trim_cons {c : Char} {rest : List Char} (h : trim (c :: rest) = c :: rest) :
    isBlank c = false :=
  isBlank_of_trimStart_eq_cons (trimStart_of_trim h)

/-- A trimmed text does not end with blanks. -/
theorem eq_nil_of_trim_append {xs ys : List Char} (h : trim (xs ++ ys) = xs ++ ys)
    (hys : trim ys = []) : ys = [] := by
  have hend : trimEnd (xs ++ ys) = xs ++ ys := by
    rw [trim, trimStart_of_trim h] at h
    exact h
  have hblank : trimEnd ys = [] := trimEnd_eq_nil_iff.mpr (trim_eq_nil_iff.mp hys)
  rw [trimEnd_append, if_pos hblank] at hend
  have hle : (xs ++ ys).length ≤ xs.length := by
    rw [← hend]
    exact (List.rdropWhile_prefix isBlank xs).length_le
  rw [List.length_append] at hle
  exact List.length_eq_zero_iff.mp (by omega)

/-- Trimming a text that does not begin with a blank keeps its first character. -/
theorem trim_cons {c : Char} (h : isBlank c = false) (rest : List Char) :
    ∃ tail, trim (c :: rest) = c :: tail ∧ trim (c :: rest) = trimEnd (c :: rest) := by
  have hstart : trimStart (c :: rest) = c :: rest := List.dropWhile_cons_of_neg (by simp [h])
  have htrim : trim (c :: rest) = trimEnd (c :: rest) := by rw [trim, hstart]
  have hbegins : trimEnd (c :: rest) <+: c :: rest := List.rdropWhile_prefix _ _
  rw [htrim]
  cases hend : trimEnd (c :: rest) with
  | nil =>
    have hblank := trim_eq_nil_iff.mp (htrim.trans hend) c List.mem_cons_self
    rw [h] at hblank
    cases hblank
  | cons first tail =>
    rw [hend, List.cons_prefix_cons] at hbegins
    exact ⟨tail, by rw [hbegins.1], rfl⟩

/-- **Trimming leaves what stands between blanks.** -/
theorem trim_eq_iff {cs mid : List Char} (hmid : trim mid = mid) :
    trim cs = mid ↔ ∃ front back, (∀ c ∈ front, isBlank c = true) ∧
      (∀ c ∈ back, isBlank c = true) ∧ cs = front ++ (mid ++ back) := by
  constructor
  · rintro rfl
    obtain ⟨front, hcut, hfront⟩ := exists_append_trimStart cs
    obtain ⟨back, hrest, hback⟩ := exists_trimEnd_append (trimStart cs)
    refine ⟨front, back, hfront, hback, ?_⟩
    rw [trim, ← hrest]
    exact hcut
  · rintro ⟨front, back, hfront, hback, rfl⟩
    have hend : trimEnd back = [] := trimEnd_eq_nil_iff.mpr hback
    rw [trim, trimStart_append_of_blank hfront]
    cases mid with
    | nil =>
      rw [List.nil_append, ← trim]
      exact trim_eq_nil_iff.mpr hback
    | cons c rest =>
      have hstart : trimStart (c :: (rest ++ back)) = c :: (rest ++ back) :=
        List.dropWhile_cons_of_neg (by simp [isBlank_of_trim_cons hmid])
      rw [List.cons_append, hstart, ← List.cons_append, trimEnd_append, if_pos hend]
      rw [trim, trimStart_of_trim hmid] at hmid
      exact hmid

end Daybook.Text
