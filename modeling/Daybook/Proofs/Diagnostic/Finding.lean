/-
  Daybook/Proofs/Diagnostic/Finding.lean
  ======================================
  **Findings of one code.**  Statements about what a stage reports single out the
  findings of a code, or the lines at which they are filed.  Both go through
  concatenation, and sorting only moves them.
-/
import Daybook.Diagnostic.Finding

namespace Daybook

/-! ### The findings themselves -/

def withCode (code : Code) (ds : List Diagnostic) : List Diagnostic :=
  ds.filter fun d => d.code = code

@[simp] theorem withCode_nil (code : Code) : withCode code [] = [] := rfl

@[simp] theorem withCode_append (code : Code) (ds es : List Diagnostic) :
    withCode code (ds ++ es) = withCode code ds ++ withCode code es := by
  simp [withCode]

theorem withCode_flatMap {α : Type} (code : Code) (items : List α) (f : α → List Diagnostic) :
    withCode code (items.flatMap f) = items.flatMap fun item => withCode code (f item) := by
  simp [withCode, List.filter_flatMap]

theorem withCode_eq_nil {code : Code} {ds : List Diagnostic} (h : ∀ d ∈ ds, d.code ≠ code) :
    withCode code ds = [] := by
  simpa [withCode, List.filter_eq_nil_iff] using h

theorem withCode_of_code {code : Code} {ds : List Diagnostic} (h : ∀ d ∈ ds, d.code = code)
    (wanted : Code) : withCode wanted ds = if wanted = code then ds else [] := by
  split
  next heq =>
    subst heq
    simpa [withCode, List.filter_eq_self] using h
  next hne =>
    apply withCode_eq_nil
    intro d hd
    rw [h d hd]
    exact Ne.symm hne

theorem withCode_eq_nil_of_notMem {code : Code} {codes : List Code} {ds : List Diagnostic}
    (hcode : code ∉ codes) (h : ∀ d ∈ ds, d.code ∈ codes) : withCode code ds = [] := by
  apply withCode_eq_nil
  intro d hd
  rintro rfl
  exact hcode (h d hd)

theorem perm_withCode_sort (code : Code) (ds : List Diagnostic) :
    (withCode code (Diagnostic.sort ds)).Perm (withCode code ds) :=
  (List.mergeSort_perm ds _).filter _

theorem flatMap_ite_nil {α β : Type} (items : List α) (c : α → Bool) (f : α → List β) :
    (items.flatMap fun item => if c item then f item else []) = (items.filter c).flatMap f := by
  induction items with
  | nil => rfl
  | cons item rest ih => cases h : c item <;> simp [h, ih]

theorem flatMap_ite_singleton {α β : Type} (items : List α) (c : α → Bool) (f : α → β) :
    (items.flatMap fun item => if c item then [f item] else []) = (items.filter c).map f := by
  rw [flatMap_ite_nil, List.map_eq_flatMap]

/-! ### Their lines -/

/-- The lines at which the findings with a code are filed, in the order of the findings. -/
def linesWith (code : Code) (ds : List Diagnostic) : List Nat :=
  (withCode code ds).map Diagnostic.line

@[simp] theorem linesWith_nil (code : Code) : linesWith code [] = [] := rfl

@[simp] theorem linesWith_append (code : Code) (ds es : List Diagnostic) :
    linesWith code (ds ++ es) = linesWith code ds ++ linesWith code es := by
  simp [linesWith]

theorem linesWith_flatMap {α : Type} (code : Code) (items : List α) (f : α → List Diagnostic) :
    linesWith code (items.flatMap f) = items.flatMap fun item => linesWith code (f item) := by
  simp [linesWith, withCode_flatMap, List.map_flatMap]

theorem linesWith_eq_nil {code : Code} {ds : List Diagnostic} (h : ∀ d ∈ ds, d.code ≠ code) :
    linesWith code ds = [] := by
  rw [linesWith, withCode_eq_nil h, List.map_nil]

theorem linesWith_singleton (code : Code) (d : Diagnostic) :
    linesWith code [d] = if d.code = code then [d.line] else [] := by
  by_cases h : d.code = code <;> simp [linesWith, withCode, h]

end Daybook
