/-
  Daybook/Proofs/Rules/Frozen.lean
  ================================
  **What a table answers.**  A table made from a configuration answers each question
  as the trimmed configuration does (`RuleTable.AnswersFor`).  Different keys can
  become one by trimming; then the last of them in text order stands for all, since
  it is the last to be put into the mapping.  Whatever a table holds has passed the
  checks (`RuleTable.WellFormed`), so that those who read it need not check again.
-/
import Daybook.Proofs.Mapping
import Daybook.Proofs.Rules.Table
import Mathlib.Data.List.Nodup
import Mathlib.Data.Set.Function

namespace Daybook

open Daybook.Text

/-! ### Looking up after trimming -/

/-- Whether a look-up answers a text with what a mapping has under the last of its keys that trim
    to the text, made ready. -/
structure LooksUp {α β : Type} (lookUp : String → Option β) (raw : Mapping α) (ready : α → β) :
    Prop where
  some_iff : ∀ text value, lookUp text = some value ↔
    ∃ key found, IsGreatest {k | k ∈ raw.keys ∧ trimmed k = text} key ∧
      raw.get? key = some found ∧ value = ready found
  none_iff : ∀ text, lookUp text = none ↔ ∀ key ∈ raw.keys, trimmed key ≠ text

theorem looksUp_ofList {α β : Type} (raw : Mapping α) (ready : α → β) :
    LooksUp (Mapping.ofList (raw.entries.map (trimmedEntry ready))).get? raw ready where
  some_iff _ _ := Mapping.get?_ofList_map_eq_some_iff
  none_iff _ := Mapping.get?_ofList_map_eq_none_iff

/-! ### Texts without blanks around them -/

/-- Whether a text is not empty and has nothing to trim. -/
structure IsTight (s : String) : Prop where
  trimmed_eq : trimmed s = s
  ne_empty : s ≠ ""

@[simp] theorem trimmed_trimmed (s : String) : trimmed (trimmed s) = trimmed s := by
  unfold trimmed
  rw [String.toList_ofList, trim_trim]

theorem isTight_trimmed {s : String} (h : IsNonBlank s) : IsTight (trimmed s) :=
  ⟨trimmed_trimmed s, isNonBlank_iff_trimmed_ne.mp h⟩

theorem IsTight.isNonBlank {s : String} (h : IsTight s) : IsNonBlank s := by
  rw [isNonBlank_iff_trimmed_ne, h.trimmed_eq]
  exact h.ne_empty

/-- Trimming the categories of duration rules leaves them duration rules. -/
theorem AreDurationRules.trimmed {rules : List DurationRule} (h : AreDurationRules rules) :
    AreDurationRules (rules.map DurationRule.trimmed) := by
  refine ⟨by simpa using h.ne_nil, ?_, List.pairwise_map.mpr h.rising, ?_⟩
  · simpa [DurationRule.trimmed] using h.positive
  · rw [List.forall_mem_map]
    intro rule hrule
    exact (isTight_trimmed (h.categories rule hrule)).isNonBlank

/-! ### Answers and contents -/

/-- Whether a table answers as a configuration with all its texts trimmed. -/
structure RuleTable.AnswersFor (table : RuleTable) (config : RuleConfig) : Prop where
  exactPath : LooksUp table.exactPath? config.exactPaths trimmed
  durations : LooksUp table.durations? config.durationRules (List.map DurationRule.trimmed)
  isWake : ∀ text, table.isWake text = true ↔
    ∃ keyword ∈ config.wakeKeywords, trimmed keyword = text
  topParents : table.topParents.Perm (config.topParents.entries.map (trimmedEntry trimmed))
  headerOrder : table.headerOrder = config.headerOrder
  remarkLead : table.remarkLead = trimmed config.remarkLead
  sleepLeaf : table.sleepLeaf = trimmed config.sleepLeaf

/-- Whether there is nothing in a table that would have been refused or trimmed. -/
structure RuleTable.WellFormed (table : RuleTable) : Prop where
  exactPaths : ∀ entry ∈ table.exactPaths.entries, IsTight entry.1 ∧ IsTight entry.2
  durationRules : ∀ entry ∈ table.durationRules.entries,
    IsTight entry.1 ∧ AreDurationRules entry.2 ∧ ∀ rule ∈ entry.2, IsTight rule.category
  topParents : ∀ parent ∈ table.topParents, IsTight parent.1 ∧ IsTight parent.2
  wakeKeywords : ∀ keyword ∈ table.wakeKeywords, IsTight keyword
  headerOrder : table.headerOrder.Nodup
  remarkLead : IsTight table.remarkLead
  sleepLeaf : IsTight table.sleepLeaf

theorem RuleConfig.answersFor_frozen (config : RuleConfig) : config.frozen.AnswersFor config where
  exactPath := looksUp_ofList config.exactPaths trimmed
  durations := looksUp_ofList config.durationRules _
  isWake text := by
    rw [RuleTable.isWake, List.contains_iff_mem]
    exact List.mem_map
  topParents := List.mergeSort_perm _ _
  headerOrder := rfl
  remarkLead := rfl
  sleepLeaf := rfl

theorem RuleConfig.Acceptable.wellFormed_frozen {config : RuleConfig} (h : config.Acceptable) :
    config.frozen.WellFormed where
  exactPaths := by
    intro _ hentry
    obtain ⟨entry, hmem, rfl⟩ := List.mem_map.mp (Mapping.mem_of_mem_ofList hentry)
    obtain ⟨hkey, hpath⟩ := h.exact entry hmem
    exact ⟨isTight_trimmed hkey, isTight_trimmed hpath⟩
  durationRules := by
    intro _ hentry
    obtain ⟨entry, hmem, rfl⟩ := List.mem_map.mp (Mapping.mem_of_mem_ofList hentry)
    obtain ⟨hkey, hrules⟩ := h.durations entry hmem
    refine ⟨isTight_trimmed hkey, hrules.trimmed, ?_⟩
    intro _ htrimmed
    obtain ⟨rule, hrule, rfl⟩ := List.mem_map.mp htrimmed
    exact isTight_trimmed (hrules.categories rule hrule)
  topParents := by
    intro _ hparent
    rw [RuleConfig.frozen, List.mem_mergeSort] at hparent
    obtain ⟨parent, hmem, rfl⟩ := List.mem_map.mp hparent
    obtain ⟨hkey, hroot⟩ := h.parents parent hmem
    exact ⟨isTight_trimmed hkey, isTight_trimmed hroot⟩
  wakeKeywords := by
    intro _ hkeyword
    obtain ⟨keyword, hmem, rfl⟩ := List.mem_map.mp hkeyword
    exact isTight_trimmed (h.wakeKeywords keyword hmem)
  headerOrder := h.headerOrder
  remarkLead := isTight_trimmed h.remarkLead
  sleepLeaf := isTight_trimmed h.sleepLeaf

namespace RuleTable

/-! ### Positions of header fields -/

theorem position?_eq_some_iff {table : RuleTable} (h : table.headerOrder.Nodup)
    {field : HeaderField} {i : Nat} :
    table.position? field = some i ↔ table.headerOrder[i]? = some field := by
  unfold position?
  rw [List.idxOf?_eq_some_iff, List.getElem?_eq_some_iff]
  constructor
  · rintro ⟨hi, hfield, -⟩
    exact ⟨hi, hfield⟩
  · rintro ⟨hi, hfield⟩
    refine ⟨hi, hfield, ?_⟩
    intro j hji hsame
    have heq : j = i := h.getElem_inj_iff.mp (hsame.trans hfield.symm)
    omega

theorem injOn_position? {table : RuleTable} (h : table.headerOrder.Nodup) :
    Set.InjOn table.position? {field | field ∈ table.headerOrder} := by
  intro a ha b _ hsame
  obtain ⟨i, hi⟩ := Option.isSome_iff_exists.mp (List.isSome_idxOf?.mpr ha)
  have hfield : table.headerOrder[i]? = some a := (position?_eq_some_iff h).mp hi
  have hfield' : table.headerOrder[i]? = some b :=
    (position?_eq_some_iff h).mp (hsame.symm.trans hi)
  exact Option.some.inj (hfield.symm.trans hfield')

/-! ### Freezing a configuration -/

/-- **A table is made of every acceptable configuration and of no other, and is that
    configuration, trimmed.**  It answers with what the configuration has under the last key that
    trims to the text; nothing in it is blank, untrimmed or out of order; and the position of a
    header field is where the field stands in the list. -/
theorem ofConfig_answers (config : RuleConfig) :
    ((∃ table, ofConfig config = .ok table) ↔ config.Acceptable) ∧
      ∀ table, ofConfig config = .ok table →
        table.AnswersFor config ∧ table.WellFormed ∧
          (∀ field i, table.position? field = some i ↔ config.headerOrder[i]? = some field) ∧
          Set.InjOn table.position? {field | field ∈ config.headerOrder} := by
  constructor
  · constructor
    · rintro ⟨table, htable⟩
      exact (ofConfig_eq_ok_iff.mp htable).1
    · intro hacceptable
      exact ⟨config.frozen, ofConfig_eq_ok_iff.mpr ⟨hacceptable, rfl⟩⟩
  · intro table htable
    obtain ⟨hacceptable, rfl⟩ := ofConfig_eq_ok_iff.mp htable
    have hnodup : config.frozen.headerOrder.Nodup := hacceptable.headerOrder
    exact ⟨config.answersFor_frozen, hacceptable.wellFormed_frozen,
      fun _ _ => position?_eq_some_iff hnodup, injOn_position? hnodup⟩

/-- Two keys that trim to one text, and duration rules. -/
def spacedRules : RuleConfig where
  exactPaths := .ofList [("read", " book "), (" read", "paper")]
  durationRules := .ofList [("walk ", [⟨30, "stroll"⟩, ⟨60, " hike"⟩])]
  wakeKeywords := [" up "]

/-- The key without a blank in front is the last of the two. -/
theorem ofConfig_answers_spaced :
    ∃ table, ofConfig spacedRules = .ok table ∧ table.exactPath? "read" = some "book" ∧
      table.durations? "walk" = some [⟨30, "stroll"⟩, ⟨60, "hike"⟩] ∧ table.isWake "up" = true ∧
      table.position? .sleep = some 1 := by
  obtain ⟨haccepted, hanswers⟩ := ofConfig_answers spacedRules
  obtain ⟨table, htable⟩ := haccepted.mpr (by decide)
  obtain ⟨hanswer, -, hposition, -⟩ := hanswers table htable
  have hread : IsGreatest {k | k ∈ spacedRules.exactPaths.keys ∧ trimmed k = "read"} "read" := by
    refine ⟨by decide, ?_⟩
    rintro key ⟨hkey, -⟩
    revert key
    decide
  have hwalk : IsGreatest {k | k ∈ spacedRules.durationRules.keys ∧ trimmed k = "walk"}
      "walk " := by
    refine ⟨by decide, ?_⟩
    rintro key ⟨hkey, -⟩
    revert key
    decide
  refine ⟨table, htable, ?_, ?_, ?_, ?_⟩
  · exact (hanswer.exactPath.some_iff _ _).mpr ⟨_, " book ", hread, by decide, by decide⟩
  · exact (hanswer.durations.some_iff _ _).mpr
      ⟨_, [⟨30, "stroll"⟩, ⟨60, " hike"⟩], hwalk, by decide, by decide⟩
  · exact (hanswer.isWake _).mpr ⟨" up ", by decide, by decide⟩
  · exact (hposition _ _).mpr (by decide)

end RuleTable

end Daybook
