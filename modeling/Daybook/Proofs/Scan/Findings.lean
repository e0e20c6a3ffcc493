/-
  Daybook/Proofs/Scan/Findings.lean
  =================================
  **Where the findings of a scan come from.**  Stray lines, date lines and the
  lines of days raise findings of different codes, so the findings of one code are
  those of one of the three (`linesWith_scan_of_dateCode`,
  `linesWith_scan_of_dayCode`).  None of them is about the consistency of records.
-/
import Daybook.Proofs.Scan.Run

namespace Daybook

/-! ### Codes -/

def dateCodes : List Code := [.invalidDate, .duplicateDate, .missingYear]

/-- The codes of findings about a day, its lines and its end. -/
def dayCodes : List Code := .missingHeader :: dayLineCodes

theorem code_of_mem_strayFindings {setup : ScanSetup} {lines : List LogLine} {d : Diagnostic}
    (hd : d ∈ strayFindings setup lines) : d.code = .noDateAtStart := by
  rcases List.mem_flatMap.mp hd with ⟨l, -, hd⟩
  split at hd
  · cases hd
  · obtain rfl := List.mem_singleton.mp hd
    rfl

theorem code_of_mem_dateFindings {setup : ScanSetup} {p : Place} {d : Diagnostic}
    (hd : d ∈ p.dateFindings setup) : d.code ∈ dateCodes := by
  dsimp only [Place.dateFindings] at hd
  split at hd
  · split at hd
    · obtain rfl := List.mem_singleton.mp hd
      simp [dateCodes]
    · split at hd
      · obtain rfl := List.mem_singleton.mp hd
        simp [dateCodes]
      · split at hd
        · cases hd
        · obtain rfl := List.mem_singleton.mp hd
          simp [dateCodes]
  · cases hd

theorem code_of_mem_read {setup : ScanSetup} {o : Opening} {d : Diagnostic}
    (hd : d ∈ (o.read setup).2) : d.code ∈ dayCodes := by
  rcases List.mem_append.mp hd with hd | hd
  · exact List.mem_cons_of_mem _ (Block.code_of_mem_readAll hd)
  · rw [Block.code_of_mem_close hd]
    exact List.mem_cons_self

/-! ### The findings of one code -/

theorem linesWith_findings (setup : ScanSetup) (code : Code) (p : Place) :
    linesWith code (p.findings setup) =
      linesWith code (p.dateFindings setup) ++
        (p.opening? setup.fallbackYear).toList.flatMap fun o =>
          linesWith code (o.read setup).2 := by
  cases ho : p.opening? setup.fallbackYear <;> simp [Place.findings, ho]

theorem linesWith_strayFindings {code : Code} (setup : ScanSetup) (lines : List LogLine)
    (hcode : code ≠ .noDateAtStart) : linesWith code (strayFindings setup lines) = [] := by
  apply linesWith_eq_nil
  intro d hd
  rw [code_of_mem_strayFindings hd]
  exact hcode.symm

/-- What places give through the days they open is what the openings give. -/
theorem flatMap_opening? {α : Type} (fallback : Int) (before log : List LogLine)
    (f : Opening → List α) :
    ((placesFrom before log).flatMap fun p => (p.opening? fallback).toList.flatMap f) =
      (openingsFrom fallback before log).flatMap f := by
  unfold openingsFrom
  induction placesFrom before log with
  | nil => rfl
  | cons p rest ih =>
    rw [List.flatMap_cons, ih]
    cases ho : p.opening? fallback <;> simp [ho]

theorem linesWith_scan_of_dateCode (setup : ScanSetup) (lines : List String) {code : Code}
    (hcode : code ∈ dateCodes) :
    linesWith code (setup.scan lines).2 =
      (places (logLines setup.table 1 lines)).flatMap fun p =>
        linesWith code (p.dateFindings setup) := by
  have hne : ∀ code ∈ dateCodes, code ≠ .noDateAtStart ∧ code ∉ dayCodes := by decide
  obtain ⟨hstray, hday⟩ := hne code hcode
  have hread (o : Opening) : linesWith code (o.read setup).2 = [] :=
    congrArg _ (withCode_eq_nil_of_notMem hday fun d hd => code_of_mem_read hd)
  rw [scan_eq, linesWith_append, linesWith_strayFindings setup _ hstray, List.nil_append,
    linesWith_flatMap]
  refine congrArg (List.flatMap · _) (funext fun p => ?_)
  rw [linesWith_findings, List.flatMap_eq_nil_iff.mpr fun o _ => hread o, List.append_nil]

theorem linesWith_scan_of_dayCode (setup : ScanSetup) (lines : List String) {code : Code}
    (hcode : code ∈ dayCodes) :
    linesWith code (setup.scan lines).2 =
      (setup.openings lines).flatMap fun o => linesWith code (o.read setup).2 := by
  have hne : ∀ code ∈ dayCodes, code ≠ .noDateAtStart ∧ code ∉ dateCodes := by decide
  obtain ⟨hstray, hdate⟩ := hne code hcode
  have hdates (p : Place) : linesWith code (p.dateFindings setup) = [] :=
    congrArg _ (withCode_eq_nil_of_notMem hdate fun d hd => code_of_mem_dateFindings hd)
  rw [scan_eq, linesWith_append, linesWith_strayFindings setup _ hstray, List.nil_append,
    linesWith_flatMap]
  simp only [linesWith_findings, hdates, List.nil_append]
  exact flatMap_opening? _ _ _ _

theorem isLogical_of_mem_scan {setup : ScanSetup} {lines : List String} {d : Diagnostic}
    (hd : d ∈ (setup.scan lines).2) : d.isLogical = false := by
  have hcode : d.code ∈ Code.noDateAtStart :: (dateCodes ++ dayCodes) := by
    rw [scan_eq] at hd
    rcases List.mem_append.mp hd with hd | hd
    · simp [code_of_mem_strayFindings hd]
    · rcases List.mem_flatMap.mp hd with ⟨p, -, hd⟩
      rcases List.mem_append.mp hd with hd | hd
      · have := code_of_mem_dateFindings hd
        simp [this]
      · split at hd
        · cases hd
        · have := code_of_mem_read hd
          simp [this]
  have hfamily : ∀ code ∈ Code.noDateAtStart :: (dateCodes ++ dayCodes),
      code.family ≠ .logicalConsistency := by decide
  simpa [Diagnostic.isLogical] using hfamily d.code hcode

end Daybook
