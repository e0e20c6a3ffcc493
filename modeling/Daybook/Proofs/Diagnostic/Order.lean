/-
  Daybook/Proofs/Diagnostic/Order.lean
  ====================================
  **The order of findings is total and tells all of them apart.**  Each of its keys
  is a linear order, so the lexicographic combination is one, and findings that
  compare as equal agree in every key, which are all the parts that they have.
  Sorting therefore gives a list that only the findings decide, not the order in
  which they came.
-/
import Daybook.Diagnostic.Finding
import Mathlib.Data.List.Basic

namespace Daybook

/-! ### Keys -/

theorem Severity.rank_injective {a b : Severity} (h : a.rank = b.rank) : a = b := by
  have hall (s : Severity) : s ∈ all := by cases s <;> decide
  exact (List.idxOf_inj (hall a)).mp h

theorem Code.rank_injective {a b : Code} (h : a.rank = b.rank) : a = b :=
  (List.idxOf_inj a.mem_all).mp h

instance : Std.TransOrd Severity :=
  inferInstanceAs (Std.TransCmp (compareOn Severity.rank))

instance : Std.LawfulEqOrd Severity where
  eq_of_compare := by
    intro a b h
    apply Severity.rank_injective
    exact Std.LawfulEqOrd.eq_of_compare h

instance : Std.TransOrd Code :=
  inferInstanceAs (Std.TransCmp (compareOn Code.rank))

instance : Std.LawfulEqOrd Code where
  eq_of_compare := by
    intro a b h
    apply Code.rank_injective
    exact Std.LawfulEqOrd.eq_of_compare h

instance : Std.TransOrd Span :=
  inferInstanceAs <| Std.TransCmp <|
    compareLex (compareOn Span.file) <|
    compareLex (compareOn Span.lineStart) <|
    compareLex (compareOn Span.lineEnd) <|
    compareLex (compareOn Span.columnStart) <|
    compareLex (compareOn Span.columnEnd) (compareOn Span.rawText)

instance : Std.LawfulEqOrd Span where
  eq_of_compare := by
    intro a b h
    simp only [compare, compareLex_eq_eq] at h
    obtain ⟨hfile, hfirst, hlast, hstart, hend, hraw⟩ := h
    obtain ⟨⟩ := a
    obtain ⟨⟩ := b
    simp only [Span.mk.injEq]
    exact ⟨Std.LawfulEqOrd.eq_of_compare hfile, Std.LawfulEqOrd.eq_of_compare hfirst,
      Std.LawfulEqOrd.eq_of_compare hlast, Std.LawfulEqOrd.eq_of_compare hstart,
      Std.LawfulEqOrd.eq_of_compare hend, Std.LawfulEqOrd.eq_of_compare hraw⟩

namespace Diagnostic

/-! ### Findings -/

instance : Std.TransOrd Diagnostic :=
  inferInstanceAs <| Std.TransCmp <|
    compareLex (compareOn line) <|
    compareLex (compareOn code) <|
    compareLex (compareOn message) <|
    compareLex (compareOn severity) (compareOn span)

instance : Std.LawfulEqOrd Diagnostic where
  eq_of_compare := by
    intro a b h
    simp only [compare, compareLex_eq_eq] at h
    obtain ⟨hline, hcode, hmessage, hseverity, hspan⟩ := h
    obtain ⟨⟩ := a
    obtain ⟨⟩ := b
    simp only [Diagnostic.mk.injEq]
    exact ⟨Std.LawfulEqOrd.eq_of_compare hseverity, Std.LawfulEqOrd.eq_of_compare hcode,
      Std.LawfulEqOrd.eq_of_compare hmessage, Std.LawfulEqOrd.eq_of_compare hline,
      Std.LawfulEqOrd.eq_of_compare hspan⟩

theorem perm_sort (ds : List Diagnostic) : (sort ds).Perm ds := List.mergeSort_perm ds _

theorem pairwise_sort (ds : List Diagnostic) :
    (sort ds).Pairwise fun a b => (compare a b).isLE = true := by
  apply List.pairwise_mergeSort
  · intro a b c hab hbc
    exact Std.TransCmp.isLE_trans hab hbc
  · intro a b
    rw [Bool.or_eq_true, or_iff_not_imp_left]
    intro hab
    exact Ordering.isLE_of_eq_lt (Std.OrientedCmp.lt_of_not_isLE hab)

/-- Findings stand in order in one way only. -/
theorem eq_sort {ds es : List Diagnostic} (hperm : es.Perm ds)
    (hsorted : es.Pairwise fun a b => (compare a b).isLE = true) : es = sort ds := by
  refine List.Perm.eq_of_pairwise ?_ hsorted (pairwise_sort ds) (hperm.trans (perm_sort ds).symm)
  intro a b _ _ hab hba
  apply Std.LawfulEqOrd.eq_of_compare
  exact Std.OrientedCmp.isLE_antisymm hab hba

/-- **Sorting forgets the order of arrival.** -/
theorem sort_congr {ds es : List Diagnostic} (h : ds.Perm es) : sort ds = sort es :=
  eq_sort ((perm_sort ds).trans h) (pairwise_sort ds)

theorem filter_sort (p : Diagnostic → Bool) (ds : List Diagnostic) :
    (sort ds).filter p = sort (ds.filter p) :=
  eq_sort ((perm_sort ds).filter p) ((pairwise_sort ds).filter p)

end Diagnostic

end Daybook
