/-
  Daybook/Proofs/Rules/Durations.lean
  ===================================
  **Which rule a duration gets.**  The first rule whose threshold is above a duration
  is, among rising thresholds, the one with the least threshold above its whole
  minutes; the last rule stands in where no threshold is above them, and has the
  greatest (`isRuleFor_placeFor`).  The longer the duration, the later the rule
  (`placeFor_le_placeFor`), and no rule of the list is out of reach
  (`placeFor_longest`).
-/
import Daybook.Proofs.Rules.Frozen
import Daybook.Rules.Resolve
import Mathlib.Order.Bounds.Basic

namespace Daybook

/-! ### The rule for a duration -/

/-- The minutes of a duration, rounded down. -/
def wholeMinutes (seconds : Int) : Int := seconds / 60

/-- The thresholds of some rules. -/
def thresholds (rules : List DurationRule) : Set Nat :=
  {minutes | ∃ rule ∈ rules, rule.thresholdMinutes = minutes}

/-- Whether a rule is the one for a duration. -/
inductive IsRuleFor (rules : List DurationRule) (seconds : Int) (rule : DurationRule) : Prop where
  /-- It has the least threshold above the whole minutes. -/
  | above (mem : rule ∈ rules)
      (least : IsLeast {minutes | minutes ∈ thresholds rules ∧ wholeMinutes seconds < minutes}
        rule.thresholdMinutes)
  /-- No threshold is above the whole minutes, and it has the greatest. -/
  | last (mem : rule ∈ rules)
      (none : ∀ minutes ∈ thresholds rules, (minutes : Int) ≤ wholeMinutes seconds)
      (greatest : IsGreatest (thresholds rules) rule.thresholdMinutes)

theorem IsRuleFor.mem {rules : List DurationRule} {seconds : Int} {rule : DurationRule}
    (h : IsRuleFor rules seconds rule) : rule ∈ rules := by
  cases h with
  | above hmem => exact hmem
  | last hmem => exact hmem

/-- There is one threshold that the rule for a duration can have. -/
theorem IsRuleFor.threshold_eq {rules : List DurationRule} {seconds : Int}
    {rule other : DurationRule} (h : IsRuleFor rules seconds rule)
    (h' : IsRuleFor rules seconds other) : rule.thresholdMinutes = other.thresholdMinutes := by
  cases h with
  | above hmem hleast =>
    cases h' with
    | above hmem' hleast' => exact hleast.unique hleast'
    | last hmem' hnone' hgreatest' => exact absurd hleast.1.2 (not_lt.mpr (hnone' _ hleast.1.1))
  | last hmem hnone hgreatest =>
    cases h' with
    | above hmem' hleast' => exact absurd hleast'.1.2 (not_lt.mpr (hnone _ hleast'.1.1))
    | last hmem' hnone' hgreatest' => exact hgreatest.unique hgreatest'

/-! ### Its place in the list -/

/-- Whether the threshold of a rule is above a duration. -/
def isAbove (seconds : Int) (rule : DurationRule) : Bool :=
  seconds < (rule.thresholdMinutes : Int) * 60

/-- The place of the first rule whose threshold is above a duration, or of the last rule. -/
def placeFor (rules : List DurationRule) (seconds : Int) : Nat :=
  min (rules.findIdx (isAbove seconds)) (rules.length - 1)

theorem isAbove_iff {seconds : Int} {rule : DurationRule} :
    isAbove seconds rule = true ↔ wholeMinutes seconds < rule.thresholdMinutes := by
  unfold isAbove wholeMinutes
  rw [decide_eq_true_eq]
  omega

theorem not_isAbove_iff {seconds : Int} {rule : DurationRule} :
    isAbove seconds rule = false ↔ (rule.thresholdMinutes : Int) ≤ wholeMinutes seconds := by
  rw [← Bool.not_eq_true, isAbove_iff, not_lt]

/-- **The category for a duration is that of the rule at its place.** -/
theorem categoryFor?_eq (rules : List DurationRule) (seconds : Int) :
    categoryFor? rules seconds = rules[placeFor rules seconds]?.map DurationRule.category := by
  have hcategory : categoryFor? rules seconds =
      (rules[rules.findIdx (isAbove seconds)]?.or rules[rules.length - 1]?).map
        DurationRule.category := by
    rw [← List.find?_eq_getElem?_findIdx, ← List.getLast?_eq_getElem?]
    rfl
  rw [hcategory]
  unfold placeFor
  by_cases hfound : rules.findIdx (isAbove seconds) < rules.length
  · rw [Nat.min_eq_left (by omega), List.getElem?_eq_getElem hfound, Option.some_or]
  · rw [Nat.min_eq_right (by omega), List.getElem?_eq_none (Nat.not_lt.mp hfound), Option.none_or]

/-- **The longer the duration, the later the rule.** -/
theorem placeFor_le_placeFor (rules : List DurationRule) {short long : Int} (hle : short ≤ long) :
    placeFor rules short ≤ placeFor rules long := by
  have hfirst : rules.findIdx (isAbove short) ≤ rules.findIdx (isAbove long) := by
    apply List.findIdx_le_findIdx
    intro rule _ habove
    unfold isAbove at habove ⊢
    rw [decide_eq_true_eq] at habove ⊢
    exact lt_of_le_of_lt hle habove
  exact min_le_min_right _ hfirst

namespace AreDurationRules

variable {rules : List DurationRule} (h : AreDurationRules rules)
include h

theorem threshold_lt {i j : Nat} {earlier later : DurationRule} (hij : i < j)
    (hearlier : rules[i]? = some earlier) (hlater : rules[j]? = some later) :
    earlier.thresholdMinutes < later.thresholdMinutes := by
  obtain ⟨hi, rfl⟩ := List.getElem?_eq_some_iff.mp hearlier
  obtain ⟨hj, rfl⟩ := List.getElem?_eq_some_iff.mp hlater
  exact List.pairwise_iff_getElem.mp h.rising i j hi hj hij

theorem threshold_le {i j : Nat} {earlier later : DurationRule} (hij : i ≤ j)
    (hearlier : rules[i]? = some earlier) (hlater : rules[j]? = some later) :
    earlier.thresholdMinutes ≤ later.thresholdMinutes := by
  rcases Nat.eq_or_lt_of_le hij with rfl | hlt
  · obtain rfl := Option.some.inj (hearlier.symm.trans hlater)
    exact Nat.le_refl _
  · exact (h.threshold_lt hlt hearlier hlater).le

/-- The first rule whose threshold is above a duration has the least of them. -/
theorem isRuleFor_first {seconds : Int} {rule : DurationRule}
    (hrule : rules[rules.findIdx (isAbove seconds)]? = some rule) :
    IsRuleFor rules seconds rule := by
  obtain ⟨hfound, rfl⟩ := List.getElem?_eq_some_iff.mp hrule
  have hmem := List.getElem_mem hfound
  apply IsRuleFor.above hmem
  constructor
  · exact ⟨⟨_, hmem, rfl⟩, isAbove_iff.mp List.findIdx_getElem⟩
  · rintro minutes ⟨⟨other, hother, rfl⟩, habove⟩
    obtain ⟨j, hj⟩ := List.getElem?_of_mem hother
    apply h.threshold_le _ hrule hj
    -- the thresholds of the rules in front are not above the duration
    by_contra hlt
    obtain ⟨hlen, rfl⟩ := List.getElem?_eq_some_iff.mp hj
    have hnot := List.not_of_lt_findIdx (Nat.not_le.mp hlt)
    exact absurd habove (not_lt.mpr (not_isAbove_iff.mp hnot))

/-- The last rule has the greatest threshold. -/
theorem isRuleFor_last {seconds : Int} {rule : DurationRule}
    (hnone : ∀ other ∈ rules, isAbove seconds other = false)
    (hrule : rules[rules.length - 1]? = some rule) : IsRuleFor rules seconds rule := by
  have hmem := List.mem_of_getElem? hrule
  apply IsRuleFor.last hmem
  · rintro minutes ⟨other, hother, rfl⟩
    exact not_isAbove_iff.mp (hnone other hother)
  · constructor
    · exact ⟨rule, hmem, rfl⟩
    · rintro minutes ⟨other, hother, rfl⟩
      obtain ⟨j, hj⟩ := List.getElem?_of_mem hother
      obtain ⟨hlen, -⟩ := List.getElem?_eq_some_iff.mp hj
      exact h.threshold_le (by omega) hj hrule

/-- **The rule at the place for a duration is the one for it.** -/
theorem isRuleFor_placeFor (seconds : Int) :
    ∃ rule, rules[placeFor rules seconds]? = some rule ∧ IsRuleFor rules seconds rule := by
  have hlength : 0 < rules.length := List.length_pos_iff.mpr h.ne_nil
  unfold placeFor
  by_cases hfound : rules.findIdx (isAbove seconds) < rules.length
  · have hrule := List.getElem?_eq_getElem hfound
    rw [Nat.min_eq_left (by omega)]
    exact ⟨_, hrule, h.isRuleFor_first hrule⟩
  · have hnone : rules.findIdx (isAbove seconds) = rules.length :=
      Nat.le_antisymm List.findIdx_le_length (Nat.not_lt.mp hfound)
    have hrule := List.getElem?_eq_getElem (show rules.length - 1 < rules.length by omega)
    rw [Nat.min_eq_right (by omega)]
    exact ⟨_, hrule, h.isRuleFor_last (List.findIdx_eq_length.mp hnone) hrule⟩

/-- **A rule is the one for the longest duration below its threshold.** -/
theorem placeFor_longest {i : Nat} {rule : DurationRule} (hrule : rules[i]? = some rule) :
    placeFor rules ((rule.thresholdMinutes : Int) * 60 - 1) = i := by
  obtain ⟨hi, rfl⟩ := List.getElem?_eq_some_iff.mp hrule
  have hfirst : rules.findIdx (isAbove ((rules[i].thresholdMinutes : Int) * 60 - 1)) = i := by
    apply (List.findIdx_eq hi).mpr
    constructor
    · rw [isAbove_iff]
      unfold wholeMinutes
      omega
    · intro j hji
      have hlt := h.threshold_lt hji (List.getElem?_eq_getElem (by omega)) hrule
      rw [not_isAbove_iff]
      unfold wholeMinutes
      omega
  unfold placeFor
  rw [hfirst]
  exact Nat.min_eq_left (by omega)

/-- The rule for a duration stands at one place. -/
theorem isRuleFor_unique {seconds : Int} {rule other : DurationRule}
    (hrule : IsRuleFor rules seconds rule) (hother : IsRuleFor rules seconds other) :
    rule = other := by
  have hsame := hrule.threshold_eq hother
  obtain ⟨i, hi⟩ := List.getElem?_of_mem hrule.mem
  obtain ⟨j, hj⟩ := List.getElem?_of_mem hother.mem
  rcases Nat.lt_trichotomy i j with hlt | rfl | hlt
  · exact absurd hsame (h.threshold_lt hlt hi hj).ne
  · exact Option.some.inj (hi.symm.trans hj)
  · exact absurd hsame (h.threshold_lt hlt hj hi).ne'

theorem categoryFor?_eq_some_iff {seconds : Int} {category : String} :
    categoryFor? rules seconds = some category ↔
      ∃ rule, IsRuleFor rules seconds rule ∧ rule.category = category := by
  obtain ⟨rule, hplace, hrule⟩ := h.isRuleFor_placeFor seconds
  rw [categoryFor?_eq, hplace, Option.map_some, Option.some.injEq]
  constructor
  · intro hcategory
    exact ⟨rule, hrule, hcategory⟩
  · rintro ⟨other, hother, hcategory⟩
    rw [h.isRuleFor_unique hrule hother, hcategory]

end AreDurationRules

/-! ### The rules of a table -/

namespace RuleTable

theorem areDurationRules_of_ofConfig {config : RuleConfig} {table : RuleTable}
    (htable : ofConfig config = .ok table) {text : String} {rules : List DurationRule}
    (hrules : table.durations? text = some rules) : AreDurationRules rules := by
  obtain ⟨hacceptable, rfl⟩ := ofConfig_eq_ok_iff.mp htable
  have hentry := Mapping.mem_of_get?_eq_some hrules
  exact (hacceptable.wellFormed_frozen.durationRules _ hentry).2.1

/-- **A duration gets the rule with the least threshold above it**, or the one with the greatest
    threshold when none is above it; longer durations get no earlier rule, and each rule is that of
    some duration. -/
theorem categoryFor?_leastAbove {config : RuleConfig} {table : RuleTable}
    (htable : ofConfig config = .ok table) {text : String} {rules : List DurationRule}
    (hrules : table.durations? text = some rules) :
    (∀ seconds, ∃ rule, rules[placeFor rules seconds]? = some rule ∧
        categoryFor? rules seconds = some rule.category ∧ IsRuleFor rules seconds rule) ∧
      (∀ short long, short ≤ long → placeFor rules short ≤ placeFor rules long) ∧
      ∀ i rule, rules[i]? = some rule →
        ∃ seconds, 0 ≤ seconds ∧ seconds < (rule.thresholdMinutes : Int) * 60 ∧
          placeFor rules seconds = i := by
  have h := areDurationRules_of_ofConfig htable hrules
  refine ⟨?_, fun _ _ => placeFor_le_placeFor rules, ?_⟩
  · intro seconds
    obtain ⟨rule, hplace, hrule⟩ := h.isRuleFor_placeFor seconds
    exact ⟨rule, hplace, h.categoryFor?_eq_some_iff.mpr ⟨rule, hrule, rfl⟩, hrule⟩
  · intro i rule hrule
    have hpositive := h.positive rule (List.mem_of_getElem? hrule)
    exact ⟨(rule.thresholdMinutes : Int) * 60 - 1, by omega, by omega, h.placeFor_longest hrule⟩

/-- Three rules, of which the last has the category of the first again. -/
def walkingRules : RuleConfig where
  durationRules := .ofList [(" walk", [⟨30, "stroll "⟩, ⟨60, "hike"⟩, ⟨90, "stroll"⟩])]

/-- A threshold is not above the duration that reaches it, and two hours are past all of them. -/
theorem categoryFor?_leastAbove_walking :
    ∃ table rules, ofConfig walkingRules = .ok table ∧ table.durations? "walk" = some rules ∧
      (∃ rule, rules[placeFor rules 1800]? = some rule ∧ rule.category = "hike" ∧
        categoryFor? rules 1800 = some "hike" ∧ IsRuleFor rules 1800 rule) ∧
      placeFor rules 1799 = 0 ∧ placeFor rules 1799 ≤ placeFor rules 7200 ∧
      ∃ seconds, 0 ≤ seconds ∧ seconds < 90 * 60 ∧ placeFor rules seconds = 2 := by
  have htable : ofConfig walkingRules = .ok walkingRules.frozen :=
    ofConfig_eq_ok_iff.mpr ⟨by decide, rfl⟩
  have hrules : walkingRules.frozen.durations? "walk" =
      some [⟨30, "stroll"⟩, ⟨60, "hike"⟩, ⟨90, "stroll"⟩] := by decide
  obtain ⟨hpicked, hlater, hreached⟩ := categoryFor?_leastAbove htable hrules
  obtain ⟨rule, hplace, hcategory, hrule⟩ := hpicked 1800
  have hhike : rule.category = "hike" := Option.some.inj (hcategory.symm.trans (by decide))
  exact ⟨_, _, htable, hrules, ⟨rule, hplace, hhike, hcategory.trans (congrArg some hhike), hrule⟩,
    by decide, hlater 1799 7200 (by decide), hreached 2 _ rfl⟩

end RuleTable

end Daybook
