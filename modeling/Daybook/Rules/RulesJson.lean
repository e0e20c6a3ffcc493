/-
  Daybook/Rules/RulesJson.lean
  ============================
  **Rules as JSON.**  Every part of the rules may be left out and then has its
  default.
-/
import Daybook.Json.Decode
import Daybook.Rules.Config

namespace Daybook

/-! ### Parts -/

def HeaderField.toJson (field : HeaderField) : Json := .string field.name

def HeaderField.ofJson? : Json → Option HeaderField := Json.asTextOf? HeaderField.ofName?

def DurationRule.toJson (rule : DurationRule) : Json :=
  .object
    [("threshold_minutes", .natural rule.thresholdMinutes),
     ("category", .string rule.category)]

def DurationRule.ofJson? (value : Json) : Option DurationRule := do
  let fields ← value.asFields? ["threshold_minutes", "category"]
  let thresholdMinutes ← Json.required fields "threshold_minutes" Json.asSmallCount?
  let category ← Json.required fields "category" Json.asText?
  return { thresholdMinutes, category }

def Mapping.toJson {α : Type} (encode : α → Json) (m : Mapping α) : Json :=
  .object (m.entries.map fun entry => (entry.1, encode entry.2))

/-! ### Whole rules -/

def RuleConfig.toJson (config : RuleConfig) : Json :=
  .object
    [("exact_mapping", config.exactPaths.toJson .string),
     ("duration_buckets",
       config.durationRules.toJson fun rules => .array (rules.map DurationRule.toJson)),
     ("top_parents", config.topParents.toJson .string),
     ("wake_keywords", .array (config.wakeKeywords.map .string)),
     ("header_order", .array (config.headerOrder.map HeaderField.toJson)),
     ("remark_prefix", .string config.remarkLead),
     ("sleep_path", .string config.sleepLeaf)]

def RuleConfig.ofJson? (value : Json) : Option RuleConfig := do
  let fields ← value.asFields?
    ["exact_mapping", "duration_buckets", "top_parents", "wake_keywords", "header_order",
     "remark_prefix", "sleep_path"]
  let usual : RuleConfig := {}
  let exactPaths ← Json.defaulted fields "exact_mapping" (Json.asMapping? Json.asText?)
    usual.exactPaths
  let durationRules ← Json.defaulted fields "duration_buckets"
    (Json.asMapping? (Json.asList? DurationRule.ofJson?)) usual.durationRules
  let topParents ← Json.defaulted fields "top_parents" (Json.asMapping? Json.asText?)
    usual.topParents
  let wakeKeywords ← Json.defaulted fields "wake_keywords" (Json.asList? Json.asText?)
    usual.wakeKeywords
  let headerOrder ← Json.defaulted fields "header_order" (Json.asList? HeaderField.ofJson?)
    usual.headerOrder
  let remarkLead ← Json.defaulted fields "remark_prefix" Json.asText? usual.remarkLead
  let sleepLeaf ← Json.defaulted fields "sleep_path" Json.asText? usual.sleepLeaf
  return { exactPaths, durationRules, topParents, wakeKeywords, headerOrder, remarkLead, sleepLeaf }

end Daybook
