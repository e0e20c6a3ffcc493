/-
  Daybook/Proofs/Rules/Table.lean
  ===============================
  **Which rules are accepted.**  Each check passes exactly what it is meant to
  pass, and hands it on trimmed; so a configuration makes a table when it is
  acceptable, and the table is the trimmed configuration (`ofConfig_eq_ok_iff`).
  The header fields of the table stand in its order once each
  (`nodup_headerOrder_of_ofConfig`).
-/
import Daybook.Proofs.Text.Trim
import Daybook.Rules.Table
import Mathlib.Tactic.MkIffOfInductiveProp

namespace Daybook

open Daybook.Text

/-! ### Acceptable rules -/

/-- Whether a text has something other than blanks. -/
def IsNonBlank (s : String) : Prop := ∃ c ∈ s.toList, isBlank c = false

instance : DecidablePred IsNonBlank := fun s =>
  decidable_of_iff ((s.toList.any fun c => !isBlank c) = true) (by simp [IsNonBlank])

/-- Whether duration rules have thresholds that rise from above zero, and categories. -/
@[mk_iff]
structure AreDurationRules (rules : List DurationRule) : Prop where
  ne_nil : rules ≠ []
  positive : ∀ rule ∈ rules, 0 < rule.thresholdMinutes
  rising : rules.Pairwise fun a b => a.thresholdMinutes < b.thresholdMinutes
  categories : ∀ rule ∈ rules, IsNonBlank rule.category

instance : DecidablePred AreDurationRules := fun rules =>
  decidable_of_iff' _ (areDurationRules_iff rules)

/-- Whether a configuration has nothing that is refused. -/
@[mk_iff]
structure RuleConfig.Acceptable (config : RuleConfig) : Prop where
  exact : ∀ entry ∈ config.exactPaths.entries, IsNonBlank entry.1 ∧ IsNonBlank entry.2
  durations : ∀ entry ∈ config.durationRules.entries,
    IsNonBlank entry.1 ∧ AreDurationRules entry.2
  parents : ∀ entry ∈ config.topParents.entries, IsNonBlank entry.1 ∧ IsNonBlank entry.2
  wakeKeywords : ∀ keyword ∈ config.wakeKeywords, IsNonBlank keyword
  headerOrder : config.headerOrder.Nodup
  remarkLead : IsNonBlank config.remarkLead
  sleepLeaf : IsNonBlank config.sleepLeaf

instance : DecidablePred RuleConfig.Acceptable := fun config =>
  decidable_of_iff' _ (RuleConfig.acceptable_iff config)

/-! ### Trimmed rules -/

def DurationRule.trimmed (rule : DurationRule) : DurationRule :=
  { rule with category := Text.trimmed rule.category }

/-- An entry with its key trimmed and its value made ready. -/
def trimmedEntry {α β : Type} (ready : α → β) (entry : String × α) : String × β :=
  (trimmed entry.1, ready entry.2)

/-- The table that a configuration makes, whether it is acceptable or not. -/
def RuleConfig.frozen (config : RuleConfig) : RuleTable where
  exactPaths := .ofList (config.exactPaths.entries.map (trimmedEntry trimmed))
  durationRules := .ofList
    (config.durationRules.entries.map (trimmedEntry (List.map DurationRule.trimmed)))
  topParents := (config.topParents.entries.map (trimmedEntry trimmed)).mergeSort
    RuleTable.triedBefore
  wakeKeywords := config.wakeKeywords.map trimmed
  headerOrder := config.headerOrder
  remarkLead := trimmed config.remarkLead
  sleepLeaf := trimmed config.sleepLeaf

theorem isNonBlank_iff_trimmed_ne {s : String} : IsNonBlank s ↔ trimmed s ≠ "" := by
  have hempty : trimmed s = "" ↔ trim s.toList = [] := by
    unfold trimmed
    rw [← String.toList_inj]
    simp
  rw [Ne, hempty, trim_eq_nil_iff]
  unfold IsNonBlank
  push Not
  simp

/-! ### Checks in a row -/

theorem bind_eq_ok_iff {ε α β : Type} {check : Except ε α} {next : α → Except ε β} {result : β} :
    check >>= next = .ok result ↔ ∃ checked, check = .ok checked ∧ next checked = .ok result := by
  constructor
  · intro h
    cases check with
    | error fault => cases h
    | ok checked => exact ⟨checked, rfl, h⟩
  · rintro ⟨checked, rfl, h⟩
    exact h

/-- A check of each item passes when every item is good, and hands on what it makes of them. -/
theorem mapM_eq_ok_iff {ε α β : Type} {check : α → Except ε β} {Good : α → Prop} {ready : α → β}
    (hcheck : ∀ item made, check item = .ok made ↔ Good item ∧ made = ready item)
    {items : List α} {made : List β} :
    items.mapM check = .ok made ↔ (∀ item ∈ items, Good item) ∧ made = items.map ready := by
  induction items generalizing made with
  | nil =>
    rw [List.mapM_nil]
    simp [pure, Except.pure, eq_comm]
  | cons item rest ih =>
    rw [List.mapM_cons, bind_eq_ok_iff, List.forall_mem_cons, List.map_cons]
    simp only [bind_eq_ok_iff, hcheck, ih]
    constructor
    · rintro ⟨_, ⟨hitem, rfl⟩, _, ⟨hrest, rfl⟩, hmade⟩
      exact ⟨⟨hitem, hrest⟩, (Except.ok.inj hmade).symm⟩
    · rintro ⟨⟨hitem, hrest⟩, rfl⟩
      exact ⟨_, ⟨hitem, rfl⟩, _, ⟨hrest, rfl⟩, rfl⟩

namespace RuleTable

/-! ### Each check -/

theorem checkText_eq_ok_iff {place : RulePlace} {s text : String} :
    checkText place s = .ok text ↔ IsNonBlank s ∧ text = trimmed s := by
  rw [isNonBlank_iff_trimmed_ne]
  unfold checkText
  by_cases hempty : trimmed s = ""
  · simp [hempty]
  · rw [if_neg (by simpa using hempty), Except.ok.injEq]
    exact ⟨fun h => ⟨hempty, h.symm⟩, fun h => h.2.symm⟩

/-- Two texts in a row, the first of which names the place of the second. -/
theorem checkTexts_eq_ok_iff (place : RulePlace) (placeOf : String → RulePlace)
    {entry checked : String × String} :
    (do
      let key ← checkText place entry.1
      let text ← checkText (placeOf key) entry.2
      return (key, text) : Except RuleError (String × String)) = .ok checked ↔
      (IsNonBlank entry.1 ∧ IsNonBlank entry.2) ∧ checked = trimmedEntry trimmed entry := by
  simp only [bind_eq_ok_iff, checkText_eq_ok_iff]
  constructor
  · rintro ⟨_, ⟨hkey, rfl⟩, _, ⟨htext, rfl⟩, h⟩
    exact ⟨⟨hkey, htext⟩, (Except.ok.inj h).symm⟩
  · rintro ⟨⟨hkey, htext⟩, rfl⟩
    exact ⟨_, ⟨hkey, rfl⟩, _, ⟨htext, rfl⟩, rfl⟩

theorem checkExact_eq_ok_iff {entry checked : String × String} :
    checkExact entry = .ok checked ↔
      (IsNonBlank entry.1 ∧ IsNonBlank entry.2) ∧ checked = trimmedEntry trimmed entry :=
  checkTexts_eq_ok_iff .exactKey .exactPath

theorem checkParent_eq_ok_iff {entry checked : String × String} :
    checkParent entry = .ok checked ↔
      (IsNonBlank entry.1 ∧ IsNonBlank entry.2) ∧ checked = trimmedEntry trimmed entry :=
  checkTexts_eq_ok_iff .parentKey .parentRoot

/-- One step of the check of duration rules. -/
theorem checkRising_cons_eq_ok_iff {key : String} {previous : Option Nat} {rule : DurationRule}
    {rest checked : List DurationRule} :
    checkRising key previous (rule :: rest) = .ok checked ↔
      0 < rule.thresholdMinutes ∧ (∀ before ∈ previous, before < rule.thresholdMinutes) ∧
        IsNonBlank rule.category ∧ ∃ others,
          checkRising key (some rule.thresholdMinutes) rest = .ok others ∧
            checked = rule.trimmed :: others := by
  have hlast : (checkText (.durationCategory key) rule.category >>= fun category =>
      checkRising key (some rule.thresholdMinutes) rest >>= fun others =>
        Except.ok ({ rule with category } :: others)) = .ok checked ↔
      IsNonBlank rule.category ∧ ∃ others,
        checkRising key (some rule.thresholdMinutes) rest = .ok others ∧
          checked = rule.trimmed :: others := by
    simp only [bind_eq_ok_iff, checkText_eq_ok_iff]
    constructor
    · rintro ⟨_, ⟨hcategory, rfl⟩, others, hothers, h⟩
      exact ⟨hcategory, others, hothers, (Except.ok.inj h).symm⟩
    · rintro ⟨hcategory, others, hothers, rfl⟩
      exact ⟨_, ⟨hcategory, rfl⟩, others, hothers, rfl⟩
  rw [checkRising]
  by_cases hzero : rule.thresholdMinutes = 0
  · rw [if_pos hzero]
    constructor
    · intro h
      cases h
    · rintro ⟨hpositive, -⟩
      omega
  · rw [if_neg hzero]
    cases previous with
    | none => exact hlast.trans (by simp [Nat.pos_of_ne_zero hzero])
    | some before =>
      by_cases hbefore : rule.thresholdMinutes ≤ before
      · simp only [hbefore, if_true]
        constructor
        · intro h
          cases h
        · rintro ⟨-, habove, -⟩
          exact absurd (habove before rfl) (Nat.not_lt.mpr hbefore)
      · simp only [hbefore, if_false]
        exact hlast.trans (by simp [Nat.pos_of_ne_zero hzero, Nat.not_le.mp hbefore])

theorem checkRising_eq_ok_iff {key : String} {previous : Option Nat}
    {rules checked : List DurationRule} :
    checkRising key previous rules = .ok checked ↔
      ((∀ rule ∈ rules, 0 < rule.thresholdMinutes) ∧
        (∀ before ∈ previous, ∀ rule ∈ rules, before < rule.thresholdMinutes) ∧
        rules.Pairwise (fun a b => a.thresholdMinutes < b.thresholdMinutes) ∧
        ∀ rule ∈ rules, IsNonBlank rule.category) ∧
      checked = rules.map DurationRule.trimmed := by
  induction rules generalizing previous checked with
  | nil => simp [checkRising, eq_comm]
  | cons rule rest ih =>
    rw [checkRising_cons_eq_ok_iff]
    simp only [ih, List.forall_mem_cons, List.pairwise_cons, List.map_cons]
    constructor
    · rintro
        ⟨hpositive, hbefore, hcategory, _, ⟨⟨hpositive', habove, hrising, hcategories⟩, rfl⟩, rfl⟩
      have habove' := habove rule.thresholdMinutes rfl
      refine ⟨⟨⟨hpositive, hpositive'⟩, ?_, ⟨habove', hrising⟩, hcategory, hcategories⟩, rfl⟩
      intro before hmem
      exact ⟨hbefore before hmem, fun other hother =>
        Nat.lt_trans (hbefore before hmem) (habove' other hother)⟩
    · rintro ⟨⟨⟨hpositive, hpositive'⟩, hbefore, ⟨habove, hrising⟩, hcategory, hcategories⟩, rfl⟩
      refine ⟨hpositive, fun before hmem => (hbefore before hmem).1, hcategory, _,
        ⟨⟨hpositive', ?_, hrising, hcategories⟩, rfl⟩, rfl⟩
      rintro _ ⟨⟩
      exact habove

theorem checkDuration_eq_ok_iff {entry checked : String × List DurationRule} :
    checkDuration entry = .ok checked ↔
      (IsNonBlank entry.1 ∧ AreDurationRules entry.2) ∧
        checked = trimmedEntry (List.map DurationRule.trimmed) entry := by
  unfold checkDuration
  rw [bind_eq_ok_iff]
  by_cases hempty : entry.2 = []
  · simp only [hempty, List.isEmpty_nil, if_true]
    constructor
    · rintro ⟨_, -, h⟩
      cases h
    · rintro ⟨⟨-, hrules⟩, -⟩
      exact absurd rfl hrules.ne_nil
  · have hnotEmpty : entry.2.isEmpty = false := List.isEmpty_eq_false_iff.mpr hempty
    simp only [hnotEmpty, checkText_eq_ok_iff]
    constructor
    · rintro ⟨_, ⟨hkey, rfl⟩, h⟩
      obtain ⟨_, hrules, h⟩ := bind_eq_ok_iff.mp h
      obtain ⟨⟨hpositive, -, hrising, hcategories⟩, rfl⟩ := checkRising_eq_ok_iff.mp hrules
      exact ⟨⟨hkey, hempty, hpositive, hrising, hcategories⟩, (Except.ok.inj h).symm⟩
    · rintro ⟨⟨hkey, hrules⟩, rfl⟩
      refine ⟨_, ⟨hkey, rfl⟩, bind_eq_ok_iff.mpr ⟨_, checkRising_eq_ok_iff.mpr ⟨?_, rfl⟩, rfl⟩⟩
      exact ⟨hrules.positive, by simp, hrules.rising, hrules.categories⟩

theorem firstRepeated?_eq_none_iff {seen order : List HeaderField} :
    firstRepeated? seen order = none ↔ order.Nodup ∧ ∀ field ∈ order, field ∉ seen := by
  induction order generalizing seen with
  | nil => simp [firstRepeated?]
  | cons field rest ih =>
    rw [firstRepeated?, List.nodup_cons, List.forall_mem_cons]
    by_cases hseen : field ∈ seen
    · simp [hseen]
    · rw [if_neg hseen, ih]
      simp only [List.mem_cons, not_or]
      constructor
      · rintro ⟨hrest, hnew⟩
        exact ⟨⟨fun hmem => (hnew field hmem).1 rfl, hrest⟩, hseen, fun other hother =>
          (hnew other hother).2⟩
      · rintro ⟨⟨hfield, hrest⟩, -, hnew⟩
        exact ⟨hrest, fun other hother => ⟨fun heq => hfield (heq ▸ hother), hnew other hother⟩⟩

theorem checkOrder_eq_ok_iff {order checked : List HeaderField} :
    checkOrder order = .ok checked ↔ order.Nodup ∧ checked = order := by
  have hnew : firstRepeated? [] order = none ↔ order.Nodup := by
    rw [firstRepeated?_eq_none_iff]
    simp
  rw [← hnew]
  unfold checkOrder
  cases firstRepeated? [] order with
  | none => simp [eq_comm]
  | some field => simp

/-! ### The whole configuration -/

/-- **A table is a configuration that is acceptable, trimmed.** -/
theorem ofConfig_eq_ok_iff {config : RuleConfig} {table : RuleTable} :
    ofConfig config = .ok table ↔ config.Acceptable ∧ table = config.frozen := by
  unfold ofConfig
  simp only [bind_eq_ok_iff, mapM_eq_ok_iff (fun _ _ => checkExact_eq_ok_iff),
    mapM_eq_ok_iff (fun _ _ => checkDuration_eq_ok_iff),
    mapM_eq_ok_iff (fun _ _ => checkParent_eq_ok_iff),
    mapM_eq_ok_iff (fun _ _ => checkText_eq_ok_iff), checkOrder_eq_ok_iff, checkText_eq_ok_iff]
  constructor
  · rintro ⟨_, ⟨hexact, rfl⟩, _, ⟨hdurations, rfl⟩, _, ⟨hparents, rfl⟩, _, ⟨hwake, rfl⟩,
      _, ⟨horder, rfl⟩, _, ⟨hremark, rfl⟩, _, ⟨hsleep, rfl⟩, h⟩
    exact ⟨⟨hexact, hdurations, hparents, hwake, horder, hremark, hsleep⟩,
      (Except.ok.inj h).symm⟩
  · rintro ⟨h, rfl⟩
    exact ⟨_, ⟨h.exact, rfl⟩, _, ⟨h.durations, rfl⟩, _, ⟨h.parents, rfl⟩, _, ⟨h.wakeKeywords, rfl⟩,
      _, ⟨h.headerOrder, rfl⟩, _, ⟨h.remarkLead, rfl⟩, _, ⟨h.sleepLeaf, rfl⟩, rfl⟩

theorem nodup_headerOrder_of_ofConfig {config : RuleConfig} {table : RuleTable}
    (h : ofConfig config = .ok table) : table.headerOrder.Nodup := by
  obtain ⟨hacceptable, rfl⟩ := ofConfig_eq_ok_iff.mp h
  exact hacceptable.headerOrder

end RuleTable

end Daybook
