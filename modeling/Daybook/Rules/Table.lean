/-
  Daybook/Rules/Table.lean
  ========================
  **Checked rules.**  `RuleTable.ofConfig` trims every text of a configuration
  and refuses what makes no sense: a blank text, a list of duration rules that is
  empty or whose thresholds do not rise from above zero, a header field listed
  twice.  The first fault in the order of the checks is the one reported.
  Resolution needs no further checks.
-/
import Daybook.Rules.Config
import Daybook.Text.Parts

namespace Daybook

open Daybook.Text

/-! ### What can be wrong with rules -/

/-- A place in the rules that needs a text. -/
inductive RulePlace where
  | exactKey
  | exactPath (key : String)
  | durationKey
  | durationCategory (key : String)
  | parentKey
  | parentRoot (key : String)
  | wakeKeyword
  | remarkLead
  | sleepLeaf
deriving DecidableEq, Repr

def RulePlace.description : RulePlace → String
  | exactKey => "exact mapping key"
  | exactPath key => s!"exact mapping for '{key}'"
  | durationKey => "duration bucket key"
  | durationCategory key => s!"duration bucket category for '{key}'"
  | parentKey => "top parent key"
  | parentRoot key => s!"top parent for '{key}'"
  | wakeKeyword => "wake keyword"
  | remarkLead => "remark prefix"
  | sleepLeaf => "sleep path"

inductive RuleError where
  /-- Nothing but blanks stands where a text is needed. -/
  | blank (place : RulePlace)
  | noDurationRules (key : String)
  | zeroThreshold (key : String)
  | thresholdNotRising (key : String) (previous next : Nat)
  | repeatedHeader (field : HeaderField)
deriving DecidableEq, Repr

def RuleError.message : RuleError → String
  | blank place => place.description ++ " cannot be empty"
  | noDurationRules key => s!"duration buckets for '{key}' are empty"
  | zeroThreshold key => s!"duration bucket '{key}' has a non-positive threshold"
  | thresholdNotRising key previous next =>
    s!"duration bucket '{key}' thresholds must be strictly increasing ({previous} then {next})"
  | repeatedHeader field => s!"header field '{field.name}' listed more than once"

/-! ### The table -/

structure RuleTable where
  exactPaths : Mapping String := .empty
  durationRules : Mapping (List DurationRule) := .empty
  /-- Keys with their roots, the longest key first. -/
  topParents : List (String × String) := []
  wakeKeywords : List String := ["wake"]
  headerOrder : List HeaderField := [.status, .sleep, .getup, .remark]
  remarkLead : String := "Remark:"
  sleepLeaf : String := "sleep_night"
deriving DecidableEq, Repr

namespace RuleTable

/-! ### Checking -/

/-- The text without the blanks around it, which must leave something. -/
def checkText (place : RulePlace) (s : String) : Except RuleError String :=
  let text := trimmed s
  if text.isEmpty then .error (.blank place) else .ok text

def checkExact (entry : String × String) : Except RuleError (String × String) := do
  let key ← checkText .exactKey entry.1
  let path ← checkText (.exactPath key) entry.2
  return (key, path)

/-- Checks the duration rules of a text from one rule on, after the threshold `previous`. -/
def checkRising (key : String) : Option Nat → List DurationRule →
    Except RuleError (List DurationRule)
  | _, [] => .ok []
  | previous, rule :: rest => do
    if rule.thresholdMinutes = 0 then throw (.zeroThreshold key)
    match previous with
    | some before =>
      if rule.thresholdMinutes ≤ before then
        throw (.thresholdNotRising key before rule.thresholdMinutes)
    | none => pure ()
    let category ← checkText (.durationCategory key) rule.category
    let rest ← checkRising key (some rule.thresholdMinutes) rest
    return { rule with category } :: rest

def checkDuration (entry : String × List DurationRule) :
    Except RuleError (String × List DurationRule) := do
  let key ← checkText .durationKey entry.1
  if entry.2.isEmpty then throw (.noDurationRules key)
  let rules ← checkRising key none entry.2
  return (key, rules)

def checkParent (entry : String × String) : Except RuleError (String × String) := do
  let key ← checkText .parentKey entry.1
  let root ← checkText (.parentRoot key) entry.2
  return (key, root)

/-- The order in which keys are tried: the longest first, keys of one length in text order. -/
def triedBefore (a b : String × String) : Bool :=
  b.1.utf8ByteSize < a.1.utf8ByteSize ||
    (a.1.utf8ByteSize == b.1.utf8ByteSize && (compare a.1 b.1).isLE)

/-- The first field that stands in the list a second time. -/
def firstRepeated? (seen : List HeaderField) : List HeaderField → Option HeaderField
  | [] => none
  | field :: rest => if field ∈ seen then some field else firstRepeated? (field :: seen) rest

def checkOrder (order : List HeaderField) : Except RuleError (List HeaderField) :=
  match firstRepeated? [] order with
  | some field => .error (.repeatedHeader field)
  | none => .ok order

/-- The table of a configuration, or the first fault in it. -/
def ofConfig (config : RuleConfig) : Except RuleError RuleTable := do
  let exact ← config.exactPaths.entries.mapM checkExact
  let durations ← config.durationRules.entries.mapM checkDuration
  let parents ← config.topParents.entries.mapM checkParent
  let wakeKeywords ← config.wakeKeywords.mapM (checkText .wakeKeyword)
  let headerOrder ← checkOrder config.headerOrder
  let remarkLead ← checkText .remarkLead config.remarkLead
  let sleepLeaf ← checkText .sleepLeaf config.sleepLeaf
  return {
    exactPaths := .ofList exact
    durationRules := .ofList durations
    topParents := parents.mergeSort triedBefore
    wakeKeywords, headerOrder, remarkLead, sleepLeaf }

/-! ### Looking up -/

def exactPath? (table : RuleTable) (text : String) : Option String := table.exactPaths.get? text

def durations? (table : RuleTable) (text : String) : Option (List DurationRule) :=
  table.durationRules.get? text

def isWake (table : RuleTable) (text : String) : Bool := table.wakeKeywords.contains text

def position? (table : RuleTable) (field : HeaderField) : Option Nat :=
  table.headerOrder.idxOf? field

end RuleTable

end Daybook
