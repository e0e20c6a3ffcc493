/-
  Daybook/Rules/Config.lean
  =========================
  **Rules as written.**  A `RuleConfig` is what a person configures, before
  anything in it has been checked; each part has a default.  The order of the
  mappings is that of their keys as text.
-/
import Daybook.Mapping
import Daybook.Rules.HeaderField

namespace Daybook

/-- Activities shorter than the threshold get the category. -/
structure DurationRule where
  thresholdMinutes : Nat
  category : String
deriving DecidableEq, Repr

structure RuleConfig where
  /-- The path of an activity text. -/
  exactPaths : Mapping String := .empty
  /-- The categories of an activity text by duration, thresholds ascending. -/
  durationRules : Mapping (List DurationRule) := .empty
  /-- The root under which the paths below a key are filed. -/
  topParents : Mapping String := .empty
  /-- Texts that mark waking up. -/
  wakeKeywords : List String := ["wake"]
  /-- The order in which header fields are expected; a listed field other than the remark must be
      there. -/
  headerOrder : List HeaderField := [.status, .sleep, .getup, .remark]
  /-- The text that opens a remark line. -/
  remarkLead : String := "Remark:"
  /-- The path of sleep. -/
  sleepLeaf : String := "sleep_night"
deriving DecidableEq, Repr

end Daybook
