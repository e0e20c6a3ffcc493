/-
  Daybook/Validation/Config.lean
  ==============================
  **What is validated.**  A mode chooses the checks, a scope the batches of days
  that are checked together, and a few limits say what counts as plausible.
-/
import Daybook.Json.Decode

namespace Daybook

/-- Which checks run. -/
inductive ValidationMode where
  | none
  /-- Only that no date is missing. -/
  | continuity
  | full
deriving DecidableEq, Repr

namespace ValidationMode

def all : List ValidationMode := [.none, .continuity, .full]

def name : ValidationMode → String
  | .none => "none"
  | .continuity => "continuity"
  | .full => "full"

def ofName? (s : String) : Option ValidationMode := all.find? fun mode => mode.name == s

def unknownMessage (s : String) : String := s!"invalid validation mode: {s}"

theorem ofName?_name (mode : ValidationMode) : ofName? mode.name = some mode := by
  cases mode <;> decide

def toJson (mode : ValidationMode) : Json := .string mode.name

def ofJson? : Json → Option ValidationMode := Json.asNameOf? ofName?

end ValidationMode

/-- Which days are checked together. -/
inductive ValidationScope where
  /-- Those of one calendar month. -/
  | month
  /-- All days of an input. -/
  | range
deriving DecidableEq, Repr

namespace ValidationScope

def name : ValidationScope → String
  | .month => "month"
  | .range => "range"

def ofName? (s : String) : Option ValidationScope :=
  [ValidationScope.month, .range].find? fun scope => scope.name == s

def toJson (scope : ValidationScope) : Json := .string scope.name

def ofJson? : Json → Option ValidationScope := Json.asNameOf? ofName?

end ValidationScope

structure ValidationConfig where
  mode : ValidationMode := .full
  /-- Whether every day of a month must be there; a month in progress would always fail. -/
  checkDayCount : Bool := false
  minActivities : Nat := 2
  /-- The longest plausible activity. -/
  maxActivityHours : Nat := 16
deriving DecidableEq, Repr

namespace ValidationConfig

def toJson (config : ValidationConfig) : Json :=
  .object
    [("mode", config.mode.toJson),
     ("check_day_count", .boolean config.checkDayCount),
     ("min_activities", .natural config.minActivities),
     ("max_activity_hours", .natural config.maxActivityHours)]

def ofJson? (value : Json) : Option ValidationConfig := do
  let fields ← value.asFields?
    ["mode", "check_day_count", "min_activities", "max_activity_hours"]
  let usual : ValidationConfig := {}
  let mode ← Json.defaulted fields "mode" ValidationMode.ofJson? usual.mode
  let checkDayCount ← Json.defaulted fields "check_day_count" Json.asBool? usual.checkDayCount
  let minActivities ← Json.defaulted fields "min_activities" Json.asCount? usual.minActivities
  let maxActivityHours ← Json.defaulted fields "max_activity_hours" Json.asSmallCount?
    usual.maxActivityHours
  return { mode, checkDayCount, minActivities, maxActivityHours }

end ValidationConfig

end Daybook
