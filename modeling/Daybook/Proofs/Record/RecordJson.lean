/-
  Daybook/Proofs/Record/RecordJson.lean
  =====================================
  **Reading a record undoes writing it.**  Dates and times are read back from their
  text, flags that are not mentioned from `null`, and fields that are left out from
  their default.  Lengths and lines must lie in the ranges that reading accepts.
-/
import Daybook.Proofs.Calendar.DateText
import Daybook.Proofs.Calendar.TimeText
import Daybook.Proofs.Json.RoundTrip
import Daybook.Record.RecordJson

namespace Daybook

/-! ### Fields -/

@[simp] theorem lookup_cons_of_ne {name other : String} (h : name ≠ other) (value : Json)
    (fields : List (String × Json)) :
    ((other, value) :: fields).lookup name = fields.lookup name := by
  have hname : (name == other) = false := beq_false_of_ne h
  rw [List.lookup_cons, hname]

theorem asOptional?_of_some {α : Type} {decode : Json → Option α} {value : Json} {item : α}
    (hnull : value ≠ .null) (h : decode value = some item) :
    Json.asOptional? decode value = some (some item) := by
  rw [Json.asOptional?, h, Option.map_some]
  exact hnull

@[simp] theorem asOptional?_text (s : String) :
    Json.asOptional? Json.asText? (.string s) = some (some s) := rfl

/-! ### Dates, times and flags -/

@[simp] theorem Date.ofJson?_toJson (d : Date) : Date.ofJson? d.toJson = some d := by
  have hread := d.read?_chars
  simpa [ofJson?, toJson, Json.asTextOf?, Json.asText?, Date.text] using hread

@[simp] theorem TimeOfDay.ofJson?_toJson (t : TimeOfDay) : TimeOfDay.ofJson? t.toJson = some t := by
  have hread := t.read?_chars
  simpa [ofJson?, toJson, Json.asTextOf?, Json.asText?, TimeOfDay.text] using hread

theorem asOptional?_nullable_boolean (flag : Option Bool) :
    Json.asOptional? Json.asBool? (Json.nullable .boolean flag) = some flag := by
  cases flag <;> rfl

theorem DayFlags.ofJson?_toJson (flags : DayFlags) :
    DayFlags.ofJson? flags.toJson = some flags := by
  obtain ⟨status, sleep, exercise⟩ := flags
  simp [ofJson?, toJson, Json.asFields?, Json.defaulted, asOptional?_nullable_boolean]

/-! ### Activities -/

/-- Whether the length and the line of an activity lie in the ranges that are read. -/
structure Activity.IsReadable (a : Activity) : Prop where
  least : -9223372036854775808 ≤ a.seconds
  most : a.seconds ≤ 9223372036854775807
  line : a.line ≤ Json.largestCount

theorem asCount?_natural {n : Nat} (h : n ≤ Json.largestCount) :
    Json.asCount? (.natural n) = some n := by
  have hrange : (0 : Int) ≤ n ∧ (n : Int) ≤ Json.largestCount := by omega
  simp only [Json.asCount?, Json.asNatural?, Json.asInteger?, Json.natural, if_pos hrange,
    Option.map_some, Int.toNat_natCast]

theorem Activity.ofJson?_toJson {a : Activity} (h : a.IsReadable) :
    Activity.ofJson? a.toJson = some a := by
  have hseconds : Json.asDuration? (.integer a.seconds) = some a.seconds :=
    if_pos ⟨h.least, h.most⟩
  have hline := asCount?_natural h.line
  obtain ⟨start, finish, description, path, seconds, remark, line⟩ := a
  cases remark <;>
    simp [ofJson?, toJson, Json.fieldIfSome, Json.asFields?, Json.required, Json.defaulted,
      Json.asText?, hseconds, hline]

/-! ### Logs -/

/-- Whether all numbers of a log lie in the ranges that are read. -/
structure DailyLog.IsReadable (log : DailyLog) : Prop where
  activities : ∀ a ∈ log.activities, a.IsReadable
  line : log.line ≤ Json.largestCount

theorem asList?_map {α : Type} {encode : α → Json} {decode : Json → Option α} {items : List α}
    (h : ∀ item ∈ items, decode (encode item) = some item) :
    Json.asList? decode (.array (items.map encode)) = some items := by
  rw [Json.asList?, Json.mapM_map_eq_some h]

@[simp] theorem asOptional?_time (t : TimeOfDay) :
    Json.asOptional? TimeOfDay.ofJson? t.toJson = some (some t) :=
  asOptional?_of_some nofun t.ofJson?_toJson

/-- **A record is read back.** -/
theorem DailyLog.ofJson?_toJson {log : DailyLog} (h : log.IsReadable) :
    DailyLog.ofJson? log.toJson = some log := by
  have hactivities := asList?_map fun a ha => Activity.ofJson?_toJson (h.activities a ha)
  have hline := asCount?_natural h.line
  obtain ⟨date, flags, getup, remark, activities, line⟩ := log
  have hflags := flags.ofJson?_toJson
  -- each of the two fields that may be left out is there or not
  cases getup <;> cases remark <;>
    simp [ofJson?, toJson, Json.fieldIfSome, Json.asFields?, Json.required, Json.defaulted,
      hflags, hactivities, hline]

theorem logsOfJson?_logsToJson {logs : List DailyLog} (h : ∀ log ∈ logs, log.IsReadable) :
    logsOfJson? (logsToJson logs) = some logs :=
  asList?_map fun log hlog => DailyLog.ofJson?_toJson (h log hlog)

/-! ### Texts of records -/

theorem arePlainItems_map {α : Type} {encode : α → Json}
    (h : ∀ item, Json.isPlain (encode item) = true) (items : List α) :
    Json.arePlainItems (items.map encode) = true := by
  induction items with
  | nil => rfl
  | cons item rest ih => simp [Json.arePlainItems, h item, ih]

theorem Activity.isPlain_toJson (a : Activity) : a.toJson.isPlain = true := by
  obtain ⟨start, finish, description, path, seconds, remark, line⟩ := a
  cases remark <;> rfl

theorem DayFlags.isPlain_toJson (flags : DayFlags) : flags.toJson.isPlain = true := by
  obtain ⟨status, sleep, exercise⟩ := flags
  cases status <;> cases sleep <;> cases exercise <;> rfl

theorem DailyLog.isPlain_toJson (log : DailyLog) : log.toJson.isPlain = true := by
  have hactivities := arePlainItems_map Activity.isPlain_toJson log.activities
  have hflags := log.flags.isPlain_toJson
  obtain ⟨date, flags, getup, remark, activities, line⟩ := log
  cases getup <;> cases remark <;>
    simp [toJson, Json.fieldIfSome, Json.isPlain, Json.arePlainFields, Date.toJson,
      TimeOfDay.toJson, Json.natural, hflags, hactivities]

/-- **Records are read back from their text**, in either layout. -/
theorem logsOfJson?_read? {write : Json → String} (hwrite : write ∈ [Json.compact, Json.pretty])
    {logs : List DailyLog} (h : ∀ log ∈ logs, log.IsReadable) :
    (Json.read? (write (logsToJson logs))).bind logsOfJson? = some logs := by
  have hplain : (logsToJson logs).isPlain = true :=
    arePlainItems_map DailyLog.isPlain_toJson logs
  rw [Json.read?_write hwrite hplain, Option.bind_some]
  exact logsOfJson?_logsToJson h

end Daybook
