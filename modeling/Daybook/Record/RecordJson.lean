/-
  Daybook/Record/RecordJson.lean
  ==============================
  **Records as JSON.**  Flags that a day does not mention are `null`; a getup time
  or a remark that is not there is left out.  Reading asks for the date of a log
  and for the times, texts and length of an activity; the rest may be left out.
-/
import Daybook.Json.Decode
import Daybook.Record.Basic

namespace Daybook

/-! ### Dates and times -/

def Date.toJson (date : Date) : Json := .string date.text

def Date.ofJson? : Json → Option Date := Json.asTextOf? fun s => Date.read? s.toList

def TimeOfDay.toJson (time : TimeOfDay) : Json := .string time.text

def TimeOfDay.ofJson? : Json → Option TimeOfDay :=
  Json.asTextOf? fun s => TimeOfDay.read? s.toList

/-! ### Flags -/

def DayFlags.toJson (flags : DayFlags) : Json :=
  .object
    [("status", Json.nullable .boolean flags.status),
     ("sleep", Json.nullable .boolean flags.sleep),
     ("exercise", Json.nullable .boolean flags.exercise)]

def DayFlags.ofJson? (value : Json) : Option DayFlags := do
  let fields ← value.asFields? ["status", "sleep", "exercise"]
  let status ← Json.defaulted fields "status" (Json.asOptional? Json.asBool?) none
  let sleep ← Json.defaulted fields "sleep" (Json.asOptional? Json.asBool?) none
  let exercise ← Json.defaulted fields "exercise" (Json.asOptional? Json.asBool?) none
  return { status, sleep, exercise }

/-! ### Activities -/

def Activity.toJson (a : Activity) : Json :=
  .object <|
    [("start_time", a.start.toJson),
     ("end_time", a.finish.toJson),
     ("raw_text", .string a.description),
     ("project_path", .string a.path),
     ("duration_seconds", .integer a.seconds)] ++
    Json.fieldIfSome "remark" .string a.remark ++
    [("line", .natural a.line)]

def Activity.ofJson? (value : Json) : Option Activity := do
  let fields ← value.asFields?
    ["start_time", "end_time", "raw_text", "project_path", "duration_seconds", "remark", "line"]
  let start ← Json.required fields "start_time" TimeOfDay.ofJson?
  let finish ← Json.required fields "end_time" TimeOfDay.ofJson?
  let description ← Json.required fields "raw_text" Json.asText?
  let path ← Json.required fields "project_path" Json.asText?
  let seconds ← Json.required fields "duration_seconds" Json.asDuration?
  let remark ← Json.defaulted fields "remark" (Json.asOptional? Json.asText?) none
  let line ← Json.defaulted fields "line" Json.asCount? 0
  return { start, finish, description, path, seconds, remark, line }

/-! ### Logs -/

def DailyLog.toJson (log : DailyLog) : Json :=
  .object <|
    [("date", log.date.toJson),
     ("flags", log.flags.toJson)] ++
    Json.fieldIfSome "getup_time" TimeOfDay.toJson log.getup ++
    Json.fieldIfSome "remark" .string log.remark ++
    [("activities", .array (log.activities.map Activity.toJson)),
     ("line", .natural log.line)]

def DailyLog.ofJson? (value : Json) : Option DailyLog := do
  let fields ← value.asFields? ["date", "flags", "getup_time", "remark", "activities", "line"]
  let date ← Json.required fields "date" Date.ofJson?
  let flags ← Json.defaulted fields "flags" DayFlags.ofJson? {}
  let getup ← Json.defaulted fields "getup_time" (Json.asOptional? TimeOfDay.ofJson?) none
  let remark ← Json.defaulted fields "remark" (Json.asOptional? Json.asText?) none
  let activities ← Json.defaulted fields "activities" (Json.asList? Activity.ofJson?) []
  let line ← Json.defaulted fields "line" Json.asCount? 0
  return { date, flags, getup, remark, activities, line }

def logsToJson (logs : List DailyLog) : Json := .array (logs.map DailyLog.toJson)

def logsOfJson? : Json → Option (List DailyLog) := Json.asList? DailyLog.ofJson?

end Daybook
