/-
  Daybook/Rules/Resolve.lean
  ==========================
  **From an activity to its path.**  A path is a text of segments with `_`
  between them.  An activity text is looked for among the wake keywords, then
  among the exact texts, then among those with duration rules; a text that is
  nowhere stands for itself.  A path that a rule gives is moved under the root of
  the longest key that it starts with, segment by segment.
-/
import Daybook.Rules.Table

namespace Daybook

open Daybook.Text

/-! ### Paths -/

/-- What stands between the segments of a path. -/
def segmentSeparator : Char := '_'

/-- Whether a path is `head` or continues it with further segments. -/
def isUnder (head path : String) : Bool :=
  match head.toList.isPrefixOf? path.toList with
  | some rest => rest.head?.all (· == segmentSeparator)
  | none => false

namespace RuleTable

/-- The longest key that a path starts with, and its root. -/
def topParent? (table : RuleTable) (path : String) : Option (String × String) :=
  table.topParents.find? fun parent => isUnder parent.1 path

/-- The path under its root; a path that is there already, or that has no root, stays. -/
def expand (table : RuleTable) (path : String) : String :=
  match table.topParent? path with
  | none => path
  | some (_, root) =>
    if isUnder root path then path else root ++ segmentSeparator.toString ++ path

def sleepPath (table : RuleTable) : String := table.expand table.sleepLeaf

end RuleTable

/-! ### Resolution -/

/-- The category for a duration: that of the first rule whose threshold is above it, or of the
    last rule. -/
def categoryFor? (rules : List DurationRule) (seconds : Int) : Option String :=
  ((rules.find? fun rule => seconds < (rule.thresholdMinutes : Int) * 60).or rules.getLast?).map
    DurationRule.category

inductive MatchSource where
  | wakeKeyword
  | exact
  | duration
  /-- None did; the text stands for itself. -/
  | unrecognized
deriving DecidableEq, Repr

/-- The path of an activity and where it is from. -/
structure Resolution where
  path : String
  source : MatchSource
deriving DecidableEq, Repr

namespace Resolution

def recognized (r : Resolution) : Bool := r.source != .unrecognized

def isWake (r : Resolution) : Bool := r.source == .wakeKeyword

end Resolution

/-- The path of an activity that lasted so many seconds. -/
def RuleTable.resolve (table : RuleTable) (text : String) (seconds : Int) : Resolution :=
  let text := trimmed text
  if table.isWake text then ⟨table.sleepPath, .wakeKeyword⟩
  else
    match table.exactPath? text with
    | some path => ⟨table.expand path, .exact⟩
    | none =>
      match (table.durations? text).bind fun rules => categoryFor? rules seconds with
      | some category => ⟨table.expand category, .duration⟩
      | none => ⟨text, .unrecognized⟩

end Daybook
