/-
  Daybook/Conversion/Config.lean
  ==============================
  **Settings of a conversion.**  The rules, what is validated, and how a log is
  scanned.  Each setting has a default.
-/
import Daybook.Record.RecordJson
import Daybook.Rules.RulesJson
import Daybook.Validation.Config

namespace Daybook

/-- The settings of a conversion. -/
structure ConversionConfig where
  rules : RuleConfig := {}
  validation : ValidationConfig := {}
  scope : ValidationScope := .month
  /-- Where the first activity starts on a day without a getup time. -/
  dayStart : TimeOfDay := .midnight
  /-- The year of short dates before the first full one; none for the current year. -/
  fallbackYear : Option Int := none
  /-- Whether a day is closed with the sleep up to the wake line of the next day. -/
  linksSleep : Bool := true
deriving DecidableEq, Repr

namespace ConversionConfig

def toJson (config : ConversionConfig) : Json :=
  .object
    [("rules", config.rules.toJson),
     ("validation", config.validation.toJson),
     ("scope", config.scope.toJson),
     ("day_start", config.dayStart.toJson),
     ("fallback_year", Json.nullable .integer config.fallbackYear),
     ("link_overnight_sleep", .boolean config.linksSleep)]

def ofJson? (value : Json) : Option ConversionConfig := do
  let fields ← value.asFields?
    ["rules", "validation", "scope", "day_start", "fallback_year", "link_overnight_sleep"]
  let usual : ConversionConfig := {}
  let rules ← Json.defaulted fields "rules" RuleConfig.ofJson? usual.rules
  let validation ← Json.defaulted fields "validation" ValidationConfig.ofJson? usual.validation
  let scope ← Json.defaulted fields "scope" ValidationScope.ofJson? usual.scope
  let dayStart ← Json.defaulted fields "day_start" TimeOfDay.ofJson? usual.dayStart
  let fallbackYear ← Json.defaulted fields "fallback_year" (Json.asOptional? Json.asYear?)
    usual.fallbackYear
  let linksSleep ← Json.defaulted fields "link_overnight_sleep" Json.asBool? usual.linksSleep
  return { rules, validation, scope, dayStart, fallbackYear, linksSleep }

/-- The settings with another validation mode, if there is one. -/
def withMode (config : ConversionConfig) (mode : Option ValidationMode) : ConversionConfig :=
  { config with validation := { config.validation with mode := mode.getD config.validation.mode } }

end ConversionConfig

end Daybook
