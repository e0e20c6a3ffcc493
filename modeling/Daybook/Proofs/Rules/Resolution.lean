/-
  Daybook/Proofs/Rules/Resolution.lean
  ====================================
  **Resolving with the rules as written.**  What a text resolves to can be said of a
  configuration before it is made a table: the wake keywords come first, then the
  exact texts, then those with duration rules, each compared trimmed, and what a rule
  gives moves under the root of its longest key (`RuleConfig.Resolves`).  Resolving
  with the table finds just that (`resolve_eq_iff`).  Whether a text is waking up
  hangs on the trimmed text alone.  A list of duration rules that was accepted has a
  rule for every duration, so a text that has one is recognized.
-/
import Daybook.Proofs.Rules.Durations
import Daybook.Proofs.Rules.TopParent

namespace Daybook

open Daybook.Text

/-! ### Waking up -/

namespace RuleTable

theorem isWake_resolve (table : RuleTable) (text : String) (seconds : Int) :
    (table.resolve text seconds).isWake = table.isWake (trimmed text) := by
  unfold resolve
  by_cases hwake : table.isWake (trimmed text) = true
  · simp [hwake, Resolution.isWake]
  · simp only [hwake, Bool.false_eq_true, if_false]
    split
    · simp [Resolution.isWake]
    · split <;> simp [Resolution.isWake]

theorem path_resolve_of_isWake {table : RuleTable} {text : String} (seconds : Int)
    (h : table.isWake (trimmed text) = true) :
    (table.resolve text seconds).path = table.sleepPath := by
  simp [resolve, h]

end RuleTable

/-! ### Texts among trimmed keys -/

/-- Whether a key of a mapping trims to a text. -/
def HasTrimmedKey {α : Type} (raw : Mapping α) (text : String) : Prop :=
  ∃ key ∈ raw.keys, trimmed key = text

/-- Whether something stands under the last of the keys that trim to a text. -/
def StandsUnder {α : Type} (raw : Mapping α) (text : String) (found : α) : Prop :=
  ∃ key, IsGreatest {k | k ∈ raw.keys ∧ trimmed k = text} key ∧ raw.get? key = some found

theorem LooksUp.eq_some_iff {α β : Type} {lookUp : String → Option β} {raw : Mapping α}
    {ready : α → β} (h : LooksUp lookUp raw ready) {text : String} {value : β} :
    lookUp text = some value ↔ ∃ found, StandsUnder raw text found ∧ value = ready found := by
  rw [h.some_iff]
  constructor
  · rintro ⟨key, found, hkey, hget, hvalue⟩
    exact ⟨found, ⟨key, hkey, hget⟩, hvalue⟩
  · rintro ⟨found, ⟨key, hkey, hget⟩, hvalue⟩
    exact ⟨key, found, hkey, hget, hvalue⟩

theorem LooksUp.eq_none_iff {α β : Type} {lookUp : String → Option β} {raw : Mapping α}
    {ready : α → β} (h : LooksUp lookUp raw ready) {text : String} :
    lookUp text = none ↔ ¬HasTrimmedKey raw text := by
  rw [h.none_iff]
  unfold HasTrimmedKey
  push Not
  rfl

theorem StandsUnder.exists_mem {α : Type} {raw : Mapping α} {text : String} {found : α}
    (h : StandsUnder raw text found) : ∃ key, (key, found) ∈ raw.entries := by
  obtain ⟨key, -, hget⟩ := h
  exact ⟨key, Mapping.mem_of_get?_eq_some hget⟩

/-! ### Expansion -/

/-- What a path becomes under the top parents of a configuration. -/
inductive RuleConfig.ExpandsTo (config : RuleConfig) (path : String) : String → Prop where
  /-- No key has it among its paths. -/
  | alone (free : ∀ raw ∈ config.topParents.keys, ¬IsUnder (trimmed raw) path) :
      ExpandsTo config path path
  /-- It is under its root already. -/
  | settled {key root : String} (parent : config.IsTopParent path key root)
      (under : IsUnder root path) : ExpandsTo config path path
  | moved {key root : String} (parent : config.IsTopParent path key root)
      (outside : ¬IsUnder root path) :
      ExpandsTo config path (root ++ segmentSeparator.toString ++ path)

theorem RuleTable.expand_eq_iff {config : RuleConfig} {path expanded : String} :
    config.frozen.expand path = expanded ↔ config.ExpandsTo path expanded := by
  constructor
  · rintro rfl
    cases hparent : config.frozen.topParent? path with
    | none =>
      unfold expand
      rw [hparent]
      exact .alone (topParent?_eq_none_iff.mp hparent)
    | some parent =>
      obtain ⟨key, root⟩ := parent
      have htop := topParent?_eq_some_iff.mp hparent
      rw [expand_of_topParent? hparent]
      split
      next hunder => exact .settled htop hunder
      next hunder => exact .moved htop hunder
  · intro h
    cases h with
    | alone hfree =>
      unfold expand
      rw [topParent?_eq_none_iff.mpr hfree]
    | settled hparent hunder =>
      rw [expand_of_topParent? (topParent?_eq_some_iff.mpr hparent), if_pos hunder]
    | moved hparent houtside =>
      rw [expand_of_topParent? (topParent?_eq_some_iff.mpr hparent), if_neg houtside]

theorem RuleConfig.ExpandsTo.ne_empty {config : RuleConfig} {path expanded : String}
    (h : config.ExpandsTo path expanded) (hpath : path ≠ "") : expanded ≠ "" := by
  cases h with
  | alone => exact hpath
  | settled => exact hpath
  | moved =>
    intro hempty
    exact hpath (String.append_eq_empty_iff.mp hempty).2

/-! ### Resolution -/

def RuleConfig.IsWakeText (config : RuleConfig) (text : String) : Prop :=
  ∃ keyword ∈ config.wakeKeywords, trimmed keyword = text

/-- What a trimmed text resolves to for a duration. -/
inductive RuleConfig.Resolves (config : RuleConfig) (text : String) (seconds : Int) :
    Resolution → Prop where
  | wakeKeyword {path : String} (wake : config.IsWakeText text)
      (expands : config.ExpandsTo (trimmed config.sleepLeaf) path) :
      Resolves config text seconds ⟨path, .wakeKeyword⟩
  | exact {found path : String} (notWake : ¬config.IsWakeText text)
      (stands : StandsUnder config.exactPaths text found)
      (expands : config.ExpandsTo (trimmed found) path) :
      Resolves config text seconds ⟨path, .exact⟩
  | duration {rules : List DurationRule} {rule : DurationRule} {path : String}
      (notWake : ¬config.IsWakeText text) (notExact : ¬HasTrimmedKey config.exactPaths text)
      (stands : StandsUnder config.durationRules text rules)
      (picked : IsRuleFor rules seconds rule)
      (expands : config.ExpandsTo (trimmed rule.category) path) :
      Resolves config text seconds ⟨path, .duration⟩
  /-- The text stands for itself, and does not move under a root. -/
  | unrecognized (notWake : ¬config.IsWakeText text)
      (notExact : ¬HasTrimmedKey config.exactPaths text)
      (noRules : ¬HasTrimmedKey config.durationRules text) :
      Resolves config text seconds ⟨text, .unrecognized⟩

/-- Only duration rules ask how long an activity lasted. -/
theorem RuleConfig.Resolves.of_source_ne {config : RuleConfig} {text : String} {seconds : Int}
    {r : Resolution} (h : config.Resolves text seconds r) (hsource : r.source ≠ .duration)
    (seconds' : Int) : config.Resolves text seconds' r := by
  cases h with
  | wakeKeyword hwake hexpands => exact .wakeKeyword hwake hexpands
  | exact hwake hstands hexpands => exact .exact hwake hstands hexpands
  | duration => exact absurd rfl hsource
  | unrecognized hwake hexact hrules => exact .unrecognized hwake hexact hrules

theorem categoryFor?_map_trimmed (rules : List DurationRule) (seconds : Int) :
    categoryFor? (rules.map DurationRule.trimmed) seconds =
      (categoryFor? rules seconds).map trimmed := by
  unfold categoryFor?
  rw [List.find?_map, List.getLast?_map, ← Option.map_or, Option.map_map, Option.map_map]
  rfl

namespace RuleConfig.Acceptable

variable {config : RuleConfig} (h : config.Acceptable)
include h

theorem areDurationRules {text : String} {rules : List DurationRule}
    (hstands : StandsUnder config.durationRules text rules) : AreDurationRules rules := by
  obtain ⟨key, hmem⟩ := hstands.exists_mem
  exact (h.durations _ hmem).2

/-- **What a text resolves to is what the table resolves it to.** -/
theorem resolve_eq {text : String} {seconds : Int} {r : Resolution}
    (hr : config.Resolves (trimmed text) seconds r) : config.frozen.resolve text seconds = r := by
  have hanswers := config.answersFor_frozen
  have hnotWake (hwake : ¬config.IsWakeText (trimmed text)) :
      config.frozen.isWake (trimmed text) = false := by
    rw [← Bool.not_eq_true, hanswers.isWake]
    exact hwake
  unfold RuleTable.resolve
  cases hr with
  | wakeKeyword hwake hexpands =>
    simp only [(hanswers.isWake _).mpr hwake, if_true]
    exact congrArg (Resolution.mk · _) (RuleTable.expand_eq_iff.mpr hexpands)
  | exact hwake hstands hexpands =>
    simp only [hnotWake hwake, Bool.false_eq_true, if_false,
      hanswers.exactPath.eq_some_iff.mpr ⟨_, hstands, rfl⟩]
    exact congrArg (Resolution.mk · _) (RuleTable.expand_eq_iff.mpr hexpands)
  | duration hwake hexact hstands hrule hexpands =>
    have hcategory := (h.areDurationRules hstands).categoryFor?_eq_some_iff.mpr ⟨_, hrule, rfl⟩
    simp only [hnotWake hwake, Bool.false_eq_true, if_false,
      hanswers.exactPath.eq_none_iff.mpr hexact,
      hanswers.durations.eq_some_iff.mpr ⟨_, hstands, rfl⟩, Option.bind_some,
      categoryFor?_map_trimmed, hcategory, Option.map_some]
    exact congrArg (Resolution.mk · _) (RuleTable.expand_eq_iff.mpr hexpands)
  | unrecognized hwake hexact hrules =>
    simp only [hnotWake hwake, Bool.false_eq_true, if_false,
      hanswers.exactPath.eq_none_iff.mpr hexact, hanswers.durations.eq_none_iff.mpr hrules,
      Option.bind_none]

/-- **Every text resolves to something.** -/
theorem exists_resolves (text : String) (seconds : Int) :
    ∃ r, config.Resolves text seconds r := by
  have hanswers := config.answersFor_frozen
  have hexpands (path : String) : config.ExpandsTo path (config.frozen.expand path) :=
    RuleTable.expand_eq_iff.mp rfl
  by_cases hwake : config.IsWakeText text
  · exact ⟨_, .wakeKeyword hwake (hexpands _)⟩
  · cases hexact : config.frozen.exactPath? text with
    | some path =>
      obtain ⟨found, hstands, -⟩ := hanswers.exactPath.eq_some_iff.mp hexact
      exact ⟨_, .exact hwake hstands (hexpands _)⟩
    | none =>
      have hnotExact := hanswers.exactPath.eq_none_iff.mp hexact
      cases hdurations : config.frozen.durations? text with
      | some checked =>
        obtain ⟨rules, hstands, -⟩ := hanswers.durations.eq_some_iff.mp hdurations
        obtain ⟨rule, -, hrule⟩ := (h.areDurationRules hstands).isRuleFor_placeFor seconds
        exact ⟨_, .duration hwake hnotExact hstands hrule (hexpands _)⟩
      | none =>
        exact ⟨_, .unrecognized hwake hnotExact (hanswers.durations.eq_none_iff.mp hdurations)⟩

theorem resolve_eq_iff {text : String} {seconds : Int} {r : Resolution} :
    config.frozen.resolve text seconds = r ↔ config.Resolves (trimmed text) seconds r := by
  constructor
  · rintro rfl
    obtain ⟨r, hr⟩ := h.exists_resolves (trimmed text) seconds
    rw [h.resolve_eq hr]
    exact hr
  · exact h.resolve_eq

theorem path_ne_empty {text : String} {seconds : Int} {r : Resolution}
    (hr : config.Resolves text seconds r) (htext : text ≠ "") : r.path ≠ "" := by
  cases hr with
  | wakeKeyword hwake hexpands =>
    exact hexpands.ne_empty (isNonBlank_iff_trimmed_ne.mp h.sleepLeaf)
  | exact hwake hstands hexpands =>
    obtain ⟨key, hmem⟩ := hstands.exists_mem
    exact hexpands.ne_empty (isNonBlank_iff_trimmed_ne.mp (h.exact _ hmem).2)
  | duration hwake hexact hstands hrule hexpands =>
    have hcategory := (h.areDurationRules hstands).categories _ hrule.mem
    exact hexpands.ne_empty (isNonBlank_iff_trimmed_ne.mp hcategory)
  | unrecognized => exact htext

end RuleConfig.Acceptable

namespace RuleTable

/-- **Resolving with a table is resolving with the rules as written.**  Blanks around a text make no
    difference; a text with duration rules is recognized, however long it lasted; only for such a
    text can two durations differ; and what is not blank has a path. -/
theorem resolve_refines {config : RuleConfig} {table : RuleTable}
    (htable : ofConfig config = .ok table) :
    (∀ text seconds r, table.resolve text seconds = r ↔
        config.Resolves (trimmed text) seconds r) ∧
      (∀ text text' seconds, trimmed text = trimmed text' →
        table.resolve text seconds = table.resolve text' seconds) ∧
      (∀ text seconds, HasTrimmedKey config.durationRules (trimmed text) →
        (table.resolve text seconds).source ≠ .unrecognized) ∧
      (∀ text seconds seconds', table.resolve text seconds ≠ table.resolve text seconds' →
        (table.resolve text seconds).source = .duration ∧
          (table.resolve text seconds').source = .duration) ∧
      ∀ text seconds, IsNonBlank text → (table.resolve text seconds).path ≠ "" := by
  obtain ⟨h, rfl⟩ := ofConfig_eq_ok_iff.mp htable
  have hresolves (text : String) (seconds : Int) :
      config.Resolves (trimmed text) seconds (config.frozen.resolve text seconds) :=
    h.resolve_eq_iff.mp rfl
  have hsource {text : String} {seconds seconds' : Int}
      (hne : config.frozen.resolve text seconds ≠ config.frozen.resolve text seconds') :
      (config.frozen.resolve text seconds).source = .duration := by
    by_contra hother
    exact hne (h.resolve_eq ((hresolves text seconds).of_source_ne hother seconds')).symm
  refine ⟨fun _ _ _ => h.resolve_eq_iff, ?_, ?_, ?_, ?_⟩
  · intro text text' seconds htrimmed
    apply h.resolve_eq
    rw [htrimmed]
    exact hresolves text' seconds
  · intro text seconds hkey hunrecognized
    have hr := hresolves text seconds
    generalize config.frozen.resolve text seconds = r at hr hunrecognized
    cases hr with
    | unrecognized hwake hexact hrules => exact hrules hkey
    | _ => cases hunrecognized
  · intro text seconds seconds' hne
    exact ⟨hsource hne, hsource hne.symm⟩
  · intro text seconds htext
    exact h.path_ne_empty (hresolves text seconds) (isNonBlank_iff_trimmed_ne.mp htext)

/-- A text among the exact texts twice and among those with duration rules, and one among the last
    only. -/
def layeredRules : RuleConfig where
  exactPaths := .ofList [("read", " art_book "), (" read", "paper")]
  durationRules := .ofList [("read", [⟨10, "skim"⟩]), (" walk", [⟨30, "stroll "⟩, ⟨60, "hike"⟩])]
  topParents := .ofList [("art ", " mind")]

/-- The exact text wins, its last key has the say, and only the walk depends on its length. -/
theorem resolve_refines_layered :
    ∃ table, ofConfig layeredRules = .ok table ∧
      table.resolve " read" 0 = ⟨"mind_art_book", .exact⟩ ∧
      table.resolve "read " 0 = table.resolve "\tread" 0 ∧
      (table.resolve "walk " 7200).source ≠ .unrecognized ∧
      (table.resolve "walk" 1799).source = .duration ∧
      (table.resolve "chess" 0).path ≠ "" := by
  have htable : ofConfig layeredRules = .ok layeredRules.frozen :=
    ofConfig_eq_ok_iff.mpr ⟨by decide, rfl⟩
  obtain ⟨hresolves, hblanks, hrecognized, hdiffer, hpath⟩ := resolve_refines htable
  have hstands : StandsUnder layeredRules.exactPaths "read" " art_book " := by
    refine ⟨"read", ⟨by decide, ?_⟩, by decide⟩
    rintro key ⟨hkey, -⟩
    revert key
    decide
  have hparent : layeredRules.IsTopParent "art_book" "art" "mind" := by
    refine ⟨by decide, by decide, "art ", " mind", ⟨by decide, ?_⟩, by decide, by decide⟩
    rintro key ⟨hkey, htrimmed⟩
    revert key
    decide
  have hread : layeredRules.Resolves "read" 0 ⟨"mind_art_book", .exact⟩ :=
    .exact (by unfold RuleConfig.IsWakeText; decide) hstands (.moved hparent (by decide))
  refine ⟨_, htable, (hresolves _ _ _).mpr hread, hblanks _ _ _ (by decide), ?_, ?_, ?_⟩
  · exact hrecognized "walk " 7200 ⟨" walk", by decide, by decide⟩
  · exact (hdiffer "walk" 1799 1800 (by decide +kernel)).1
  · exact hpath "chess" 0 (by decide)

end RuleTable

end Daybook
