/-
  Daybook/Proofs/Conversion/Verdict.lean
  ======================================
  **Validation judges records and does not make them.**  What a conversion says
  about consistency is what validation finds, and all else it says comes from the
  scan (`filter_isLogical`, `filter_not_isLogical`).  So the settings of
  validation change nothing but the findings about consistency, and a conversion
  has failed validation just when there is one (`convert_of_settings`).
-/
import Daybook.Proofs.Conversion.Converter
import Daybook.Proofs.Text.Lines
import Daybook.Proofs.Validation.Finding

namespace Daybook.Converter

open Daybook.Text

variable {c : Converter} {name : String} {bytes : ByteArray} {run : Diagnostics} {outcome : Outcome}

/-! ### The two kinds of findings -/

theorem filter_isLogical_validate (c : Converter) (name : String) (logs : List DailyLog) :
    (c.validate name logs).filter Diagnostic.isLogical = c.validate name logs := by
  apply List.filter_eq_self.mpr
  intro d hd
  exact (Validator.raises_of_mem_check hd).isLogical

theorem filter_isLogical_scan (setup : ScanSetup) (lines : List String) :
    (setup.scan lines).2.filter Diagnostic.isLogical = [] := by
  apply List.filter_eq_nil_iff.mpr
  intro d hd
  rw [isLogical_of_mem_scan hd]
  exact Bool.false_ne_true

theorem withCode_filter_isLogical {code : Code} (ds : List Diagnostic)
    (h : code.family = .logicalConsistency) :
    withCode code (ds.filter Diagnostic.isLogical) = withCode code ds := by
  unfold withCode
  rw [List.filter_filter]
  apply List.filter_congr
  intro d _
  by_cases hcode : d.code = code
  · simp [Diagnostic.isLogical, hcode, h]
  · simp [hcode]

theorem withCode_sort (code : Code) (ds : List Diagnostic) :
    withCode code (Diagnostic.sort ds) = Diagnostic.sort (withCode code ds) :=
  Diagnostic.filter_sort _ ds

/-- The findings of an outcome about consistency are those of validation. -/
theorem filter_isLogical (h : (c.convert name bytes run).2 = .ok outcome) :
    outcome.diagnostics.filter Diagnostic.isLogical =
      Diagnostic.sort (c.validate name outcome.logs) := by
  obtain ⟨-, rfl⟩ := convert_eq_ok_iff.mp h
  unfold converted
  dsimp only
  rw [Diagnostic.filter_sort, List.filter_append, filter_isLogical_scan, List.nil_append,
    filter_isLogical_validate]

theorem filter_not_isLogical (h : (c.convert name bytes run).2 = .ok outcome) :
    (outcome.diagnostics.filter fun d => !d.isLogical) =
      Diagnostic.sort ((c.scanSetup name).scan (readLines bytes).lines).2 := by
  obtain ⟨-, rfl⟩ := convert_eq_ok_iff.mp h
  have hscan : (((c.scanSetup name).scan (readLines bytes).lines).2.filter
      fun d => !d.isLogical) = ((c.scanSetup name).scan (readLines bytes).lines).2 := by
    apply List.filter_eq_self.mpr
    intro d hd
    rw [isLogical_of_mem_scan hd]
    rfl
  have hvalidate (logs : List DailyLog) :
      ((c.validate name logs).filter fun d => !d.isLogical) = [] := by
    apply List.filter_eq_nil_iff.mpr
    intro d hd
    rw [(Validator.raises_of_mem_check hd).isLogical]
    exact Bool.false_ne_true
  unfold converted
  dsimp only
  rw [Diagnostic.filter_sort, List.filter_append, hscan, hvalidate, List.append_nil]

theorem perm_filter_isLogical (h : (c.convert name bytes run).2 = .ok outcome) :
    (c.validate name outcome.logs).Perm (outcome.diagnostics.filter Diagnostic.isLogical) := by
  rw [filter_isLogical h]
  exact (Diagnostic.perm_sort _).symm

/-! ### The verdict -/

theorem validationFailed_iff_exists (h : (c.convert name bytes run).2 = .ok outcome) :
    outcome.validationFailed = true ↔ ∃ d ∈ outcome.diagnostics, d.isLogical = true := by
  rw [Outcome.validationFailed, List.any_eq_true]
  constructor
  · rintro ⟨d, hd, hfails⟩
    exact ⟨d, hd, (Bool.and_eq_true_iff.mp hfails).2⟩
  · rintro ⟨d, hd, hlogical⟩
    have hmem : d ∈ outcome.diagnostics.filter Diagnostic.isLogical :=
      List.mem_filter.mpr ⟨hd, hlogical⟩
    rw [← (perm_filter_isLogical h).mem_iff] at hmem
    have hraises := Validator.raises_of_mem_check hmem
    exact ⟨d, hd, by simp [hraises.isError, hlogical]⟩

theorem validationFailed_iff (h : (c.convert name bytes run).2 = .ok outcome) :
    outcome.validationFailed = true ↔ c.validate name outcome.logs ≠ [] := by
  have hperm := perm_filter_isLogical h
  rw [validationFailed_iff_exists h]
  constructor
  · rintro ⟨d, hd, hlogical⟩
    have hmem : d ∈ outcome.diagnostics.filter Diagnostic.isLogical :=
      List.mem_filter.mpr ⟨hd, hlogical⟩
    rw [← hperm.mem_iff] at hmem
    exact List.ne_nil_of_mem hmem
  · intro hne
    obtain ⟨d, hd⟩ := List.exists_mem_of_ne_nil _ hne
    rw [hperm.mem_iff] at hd
    exact ⟨d, List.mem_filter.mp hd⟩

/-! ### Settings -/

theorem ofConfig_eq_ok_iff {config : ConversionConfig} {year : Int} :
    ofConfig config year = .ok c ↔
      ∃ table, RuleTable.ofConfig config.rules = .ok table ∧
        c = {
          table
          validation := config.validation
          scope := config.scope
          dayStart := config.dayStart
          fallbackYear := config.fallbackYear.getD year
          linksSleep := config.linksSleep } := by
  unfold ofConfig
  cases RuleTable.ofConfig config.rules with
  | error fault => simp
  | ok table => simp [eq_comm]

theorem convert_text (c : Converter) (name text : String) (run : Diagnostics) :
    (c.convert name text.toUTF8 run).2 = .ok (c.converted name text.toUTF8) :=
  convert_of_complete (complete_readLines_toUTF8 text) run

theorem validate_of_none (h : c.validation.mode = .none) (name : String) (logs : List DailyLog) :
    c.validate name logs = [] :=
  Validator.check_of_none (v := c.validator name) h c.scope logs

theorem validate_of_continuity (h : c.validation.mode = .continuity) (name : String)
    (logs : List DailyLog) :
    let full := { c with validation := { c.validation with mode := .full } }
    c.validate name logs = withCode .missingDate (full.validate name logs) := by
  intro full
  have hcheck := (c.validator name).check_inMode_continuity c.scope logs
  rw [Validator.inMode_of_eq (v := c.validator name) h] at hcheck
  exact hcheck

/-- **The settings of validation have no influence on the records.**  Converters that differ only in
    what they validate make the same records of a text and say the same of it but for consistency.
    Of that, without checks nothing is said, and checking continuity says which dates the full
    checks find missing.  A conversion has failed validation just when something is said about
    consistency, that is, when validation has counted a finding. -/
theorem convert_of_settings {config config' : ConversionConfig} {year : Int} {c c' : Converter}
    (hconfig : ofConfig config year = .ok c) (hconfig' : ofConfig config' year = .ok c')
    (hsame : config' =
      { config with validation := config'.validation, scope := config'.scope })
    (name text : String) (run run' : Diagnostics) :
    ∃ outcome outcome', (c.convert name text.toUTF8 run).2 = .ok outcome ∧
      (c'.convert name text.toUTF8 run').2 = .ok outcome' ∧
      outcome'.logs = outcome.logs ∧
      (outcome'.diagnostics.filter fun d => !d.isLogical) =
        (outcome.diagnostics.filter fun d => !d.isLogical) ∧
      (config.validation.mode = .none → outcome.diagnostics.filter Diagnostic.isLogical = []) ∧
      (config.validation.mode = .continuity → config' = config.withMode (some .full) →
        outcome.diagnostics.filter Diagnostic.isLogical =
          withCode .missingDate outcome'.diagnostics) ∧
      (outcome.validationFailed = true ↔ ∃ d ∈ outcome.diagnostics, d.isLogical = true) ∧
      ∀ earlier, outcome.validationFailed = true ↔
        0 < (c.validateIn name outcome.logs earlier).2 := by
  have hconvert := c.convert_text name text run
  have hconvert' := c'.convert_text name text run'
  obtain ⟨table, htable, hc⟩ := ofConfig_eq_ok_iff.mp hconfig
  obtain ⟨table', htable', hc'⟩ := ofConfig_eq_ok_iff.mp hconfig'
  obtain rfl : table' = table := by
    rw [hsame, htable] at htable'
    exact (Except.ok.inj htable').symm
  -- what is not about validation agrees
  have hrest : c' = { c with validation := c'.validation, scope := c'.scope } := by
    rw [hc', hc, hsame]
  have hsetup : c'.scanSetup name = c.scanSetup name := by
    rw [hrest]
    rfl
  have hlogs : (c'.converted name text.toUTF8).logs = (c.converted name text.toUTF8).logs := by
    rw [hrest]
    rfl
  refine ⟨_, _, hconvert, hconvert', hlogs, ?_, ?_, ?_, validationFailed_iff_exists hconvert, ?_⟩
  · rw [filter_not_isLogical hconvert, filter_not_isLogical hconvert', hsetup]
  · intro hmode
    have hnone : c.validation.mode = .none := by
      rw [hc]
      exact hmode
    rw [filter_isLogical hconvert, validate_of_none hnone]
    exact List.mergeSort_nil
  · intro hmode hfull
    have hcontinuity : c.validation.mode = .continuity := by
      rw [hc]
      exact hmode
    have hother : c' = { c with validation := { c.validation with mode := .full } } := by
      rw [hc', hc, hfull]
      rfl
    rw [← withCode_filter_isLogical _ rfl, filter_isLogical hconvert, filter_isLogical hconvert',
      hlogs, validate_of_continuity hcontinuity, ← hother, withCode_sort]
  · intro earlier
    rw [validationFailed_iff hconvert, validateIn_eq]
    exact List.length_pos_iff.symm

/-- Two days with a date missing between them and neither closed with sleep: checking continuity
    finds the date, and all checks find it and more. -/
theorem convert_of_settings_missing_date :
    let config : ConversionConfig :=
      { validation := { mode := .continuity }, scope := .range, fallbackYear := some 2025 }
    let config' := config.withMode (some .full)
    let text := "01_15\n0700wake\n0900 x\n\n01_17\n0800 y\n"
    ∃ c c' outcome outcome', ofConfig config 2030 = .ok c ∧ ofConfig config' 2030 = .ok c' ∧
      (c.convert "log.txt" text.toUTF8 .quiet).2 = .ok outcome ∧
      (c'.convert "log.txt" text.toUTF8 .fresh).2 = .ok outcome' ∧
      outcome'.logs = outcome.logs ∧
      outcome.diagnostics.filter Diagnostic.isLogical =
        withCode .missingDate outcome'.diagnostics ∧
      (outcome.diagnostics.filter Diagnostic.isLogical).length = 1 ∧
      (outcome'.diagnostics.filter Diagnostic.isLogical).length = 5 ∧
      outcome.validationFailed = true := by
  intro config config' text
  let c : Converter := {
    table := {}, validation := { mode := .continuity }, scope := .range, dayStart := .midnight,
    fallbackYear := 2025, linksSleep := true }
  let c' : Converter := { c with validation := {} }
  let logs := (c.converted "log.txt" text.toUTF8).logs
  have htable : RuleTable.ofConfig {} = .ok {} := by decide +kernel
  have hconfig : ofConfig config 2030 = .ok c := ofConfig_eq_ok_iff.mpr ⟨{}, htable, rfl⟩
  have hconfig' : ofConfig config' 2030 = .ok c' := ofConfig_eq_ok_iff.mpr ⟨{}, htable, rfl⟩
  obtain ⟨outcome, outcome', hconvert, hconvert', hlogs, -, -, hcontinuity, hfailed, -⟩ :=
    convert_of_settings hconfig hconfig' rfl "log.txt" text .quiet .fresh
  have houtcome : outcome.logs = logs :=
    congrArg Outcome.logs (Except.ok.inj (hconvert.symm.trans (c.convert_text _ _ _)))
  have hsorted : sortByDate logs = logs := List.mergeSort_of_pairwise (by decide +kernel)
  have hone : (outcome.diagnostics.filter Diagnostic.isLogical).length = 1 := by
    have hfound : (c.validate "log.txt" logs).length =
        ((c.validator "log.txt").checkContinuity (sortByDate logs)).length := rfl
    rw [← (perm_filter_isLogical hconvert).length_eq, houtcome, hfound, hsorted]
    decide +kernel
  have hfive : (outcome'.diagnostics.filter Diagnostic.isLogical).length = 5 := by
    have hfound : (c'.validate "log.txt" logs).length =
        ((c'.validator "log.txt").checkContinuity (sortByDate logs) ++ [] ++
          (sortByDate logs).flatMap (c'.validator "log.txt").checkDay).length := rfl
    rw [← (perm_filter_isLogical hconvert').length_eq, hlogs, houtcome, hfound, hsorted]
    decide +kernel
  refine ⟨c, c', outcome, outcome', hconfig, hconfig', hconvert, hconvert', hlogs,
    hcontinuity rfl rfl, hone, hfive, hfailed.mpr ?_⟩
  obtain ⟨d, hd⟩ := List.exists_mem_of_length_pos (hone.symm ▸ Nat.one_pos)
  exact ⟨d, List.mem_filter.mp hd⟩

end Daybook.Converter
