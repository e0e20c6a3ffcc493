/-
  Daybook/Proofs/Text/Cut.lean
  ============================
  **Cutting a text undoes joining it.**  The parts that `cutAt?` gives make the text
  with the separator between them (`append_of_cutAt?_eq_some`), and a text is cut
  where it was joined when no occurrence of the separator begins before
  (`cutAt?_append`).
-/
import Daybook.Text.Parts
import Mathlib.Data.List.Basic

namespace Daybook.Text

variable {sep cs : List Char}

theorem isPrefixOf?_eq_none (h : ¬sep <+: cs) : sep.isPrefixOf? cs = none := by
  rw [Option.eq_none_iff_forall_ne_some]
  intro rest hrest
  exact h ⟨rest, List.isPrefixOf?_eq_some_iff_append_eq.mp hrest⟩

theorem append_of_cutAt?_eq_some {before after : List Char}
    (h : cutAt? sep cs = some (before, after)) : cs = before ++ sep ++ after := by
  induction cs generalizing before with
  | nil =>
    rw [cutAt?] at h
    split at h
    next hempty =>
      obtain ⟨rfl, rfl⟩ := Prod.mk.inj (Option.some.inj h)
      simp [List.isEmpty_iff.mp hempty]
    next => cases h
  | cons c rest ih =>
    rw [cutAt?] at h
    split at h
    next after' hprefix =>
      obtain ⟨rfl, rfl⟩ := Prod.mk.inj (Option.some.inj h)
      exact (List.isPrefixOf?_eq_some_iff_append_eq.mp hprefix).symm
    next =>
      obtain ⟨⟨front, back⟩, hcut, hparts⟩ := Option.map_eq_some_iff.mp h
      obtain ⟨rfl, rfl⟩ := Prod.mk.inj hparts
      rw [ih hcut, List.cons_append, List.cons_append]

theorem cutAt?_eq_none (h : ¬sep <:+: cs) : cutAt? sep cs = none := by
  rw [Option.eq_none_iff_forall_ne_some]
  rintro ⟨before, after⟩ hcut
  exact h ⟨before, after, (append_of_cutAt?_eq_some hcut).symm⟩

/-- **A text is cut where it was joined**, if no occurrence of the separator begins before. -/
theorem cutAt?_append {before : List Char} (after : List Char) (hsep : sep ≠ [])
    (h : ∀ tail, tail ≠ [] → tail <:+ before → ¬sep <+: tail ++ (sep ++ after)) :
    cutAt? sep (before ++ (sep ++ after)) = some (before, after) := by
  induction before with
  | nil =>
    obtain ⟨c, rest, rfl⟩ := List.exists_cons_of_ne_nil hsep
    have hprefix : (c :: rest).isPrefixOf? (c :: (rest ++ after)) = some after :=
      List.isPrefixOf?_eq_some_iff_append_eq.mpr rfl
    rw [List.nil_append, List.cons_append, cutAt?, hprefix]
  | cons c rest ih =>
    have hfirst := isPrefixOf?_eq_none (h (c :: rest) (List.cons_ne_nil _ _) List.suffix_rfl)
    have hrest := ih fun tail hne htail => h tail hne (htail.trans (List.suffix_cons c rest))
    rw [List.cons_append] at hfirst ⊢
    rw [cutAt?, hfirst, hrest]
    rfl

/-! ### Cutting at a character -/

theorem splitAt_cons (c sepChar : Char) (cs : List Char) :
    splitAt sepChar (c :: cs) =
      if c = sepChar then [] :: splitAt sepChar cs
      else match splitAt sepChar cs with
        | [] => [[c]]
        | part :: rest => (c :: part) :: rest := rfl

theorem splitAt_eq_splitOn (sepChar : Char) (cs : List Char) :
    splitAt sepChar cs = cs.splitOn sepChar := by
  induction cs with
  | nil => rfl
  | cons c rest ih =>
    rw [splitAt_cons, ih, List.splitOn_cons_eq_if_modifyHead]
    cases hrest : rest.splitOn sepChar with
    | nil => exact absurd hrest (List.splitOn_ne_nil sepChar rest)
    | cons part parts => simp

/-- The first part ends where the character first stands. -/
theorem exists_splitAt_eq_cons (sepChar : Char) (cs : List Char) :
    ∃ rest, splitAt sepChar cs = (cs.takeWhile fun c => c ≠ sepChar) :: rest := by
  induction cs with
  | nil => exact ⟨[], rfl⟩
  | cons c cs ih =>
    obtain ⟨rest, hrest⟩ := ih
    rw [splitAt_cons]
    by_cases hc : c = sepChar
    · exact ⟨splitAt sepChar cs, by rw [if_pos hc, List.takeWhile_cons_of_neg (by simp [hc])]⟩
    · exact ⟨rest, by rw [if_neg hc, hrest, List.takeWhile_cons_of_pos (by simp [hc])]⟩

/-- A text that does not end with the character has something behind its last occurrence. -/
theorem exists_getLast?_splitAt {sepChar c : Char} {cs : List Char} (h : cs.getLast? = some c)
    (hc : c ≠ sepChar) : ∃ part, (splitAt sepChar cs).getLast? = some part ∧ part ≠ [] := by
  induction cs with
  | nil => cases h
  | cons first rest ih =>
    rw [splitAt_cons]
    cases rest with
    | nil =>
      obtain rfl : first = c := by simpa using h
      exact ⟨[first], by simp [hc, splitAt], by simp⟩
    | cons second others =>
      rw [List.getLast?_cons_cons] at h
      obtain ⟨part, hlast, hne⟩ := ih h
      obtain ⟨parts, hparts⟩ := exists_splitAt_eq_cons sepChar (second :: others)
      rw [hparts] at hlast ⊢
      split
      · exact ⟨part, by rw [List.getLast?_cons_cons, hlast], hne⟩
      · cases parts with
        | nil => exact ⟨_, rfl, List.cons_ne_nil _ _⟩
        | cons next more =>
          rw [List.getLast?_cons_cons] at hlast
          exact ⟨part, by rw [List.getLast?_cons_cons, hlast], hne⟩

end Daybook.Text
