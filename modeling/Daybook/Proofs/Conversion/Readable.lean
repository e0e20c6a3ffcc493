/-
  Daybook/Proofs/Conversion/Readable.lean
  =======================================
  **Converted records can be read back.**  Every line that a record names is a line
  of the log, and a log has no more lines than bytes; every length is that of an
  interval, which is shorter than a day.
-/
import Daybook.Proofs.Conversion.Chain
import Daybook.Proofs.Record.RecordJson

namespace Daybook

/-! ### How many lines there are -/

namespace Text

theorem length_byteLines_le (current bytes : List UInt8) :
    (byteLines current bytes).length ≤ bytes.length + current.length := by
  induction bytes generalizing current with
  | nil =>
    cases current with
    | nil => exact Nat.le_refl 0
    | cons byte rest => simp [byteLines]
  | cons byte rest ih =>
    rw [byteLines]
    split
    · have hrest := ih []
      simp only [List.length_cons, List.length_nil] at hrest ⊢
      omega
    · have hrest := ih (byte :: current)
      simp only [List.length_cons] at hrest ⊢
      omega

theorem length_decodeLines_le (lines : List (List UInt8)) :
    (decodeLines lines).lines.length ≤ lines.length := by
  induction lines with
  | nil => exact Nat.le_refl 0
  | cons line rest ih =>
    rw [decodeLines]
    split
    · exact Nat.zero_le _
    · exact Nat.succ_le_succ ih

theorem length_readLines_le (bytes : ByteArray) :
    (readLines bytes).lines.length ≤ bytes.size := by
  have hcut := length_byteLines_le [] bytes.data.toList
  have hdecoded := length_decodeLines_le (byteLines [] bytes.data.toList)
  exact hdecoded.trans hcut

end Text

/-! ### Lines of records -/

theorem number_le_of_mem_logLines {table : RuleTable} {n : Nat} {lines : List String}
    {l : LogLine} (hl : l ∈ logLines table n lines) : l.number < n + lines.length := by
  induction lines generalizing n with
  | nil => cases hl
  | cons raw rest ih =>
    rw [List.length_cons]
    rcases List.mem_cons.mp hl with rfl | hl
    · rw [LogLine.number_ofRaw]
      omega
    · have hrest := ih hl
      omega

/-- Whether all lines that a log names are among the first lines of a file. -/
structure DailyLog.LinesWithin (bound : Nat) (log : DailyLog) : Prop where
  line : log.line ≤ bound
  activities : ∀ a ∈ log.activities, a.line ≤ bound

theorem linesWithin_of_mem_scan {setup : ScanSetup} {lines : List String} {day : ScannedDay}
    (hday : day ∈ (setup.scan lines).1) : day.log.LinesWithin lines.length := by
  rw [days_scan] at hday
  obtain ⟨o, ho, rfl⟩ := List.mem_map.mp hday
  -- the date line of a day and the lines behind it are lines of the log
  have hplace := mem_places.mp (Opening.mem_openings.mp ho).1
  have hbound : ∀ l ∈ o.place.line :: o.place.after, l.number ≤ lines.length := by
    intro l hl
    have hmem : l ∈ logLines setup.table 1 lines := by
      rw [← hplace]
      exact List.mem_append_right _ hl
    have hlt := number_le_of_mem_logLines hmem
    omega
  constructor
  · rw [Opening.line_read]
    exact hbound _ List.mem_cons_self
  · intro a ha
    obtain ⟨l, hl, written, -, hline, -⟩ := Opening.exists_line_of_mem_activities ho ha
    rw [hline]
    exact hbound l (List.mem_cons_of_mem _ hl)

namespace Converter

open Daybook.Text

variable {c : Converter} {name : String} {bytes : ByteArray} {run : Diagnostics} {outcome : Outcome}

theorem line_nightSleep?_le {days : List ScannedDay} {bound : Nat}
    (hdays : ∀ day ∈ days, day.log.LinesWithin bound) {log : DailyLog} {sleep : Activity}
    (h : c.nightSleep? days log = some sleep) : sleep.line ≤ bound := by
  unfold nightSleep? at h
  split at h
  · obtain ⟨last, next, wake, -, hwake, -, rfl⟩ := closingSleep?_eq_some_iff.mp h
    obtain ⟨day, hday, hfound⟩ := List.exists_of_findSome?_eq_some hwake
    split at hfound
    · obtain ⟨time, -, hpair⟩ := Option.map_eq_some_iff.mp hfound
      obtain ⟨rfl, -⟩ := Prod.mk.inj hpair
      exact (hdays day hday).line
    · cases hfound
  · cases h

theorem linesWithin_of_convert (h : (c.convert name bytes run).2 = .ok outcome) :
    ∀ log ∈ outcome.logs, log.LinesWithin (readLines bytes).lines.length := by
  intro log hlog
  rw [logs_of_convert h, records_eq] at hlog
  obtain ⟨day, hday, rfl⟩ := List.mem_map.mp hlog
  have hscan : ∀ day ∈ ((c.scanSetup name).scan (readLines bytes).lines).1,
      day.log.LinesWithin (readLines bytes).lines.length :=
    fun _ hday => linesWithin_of_mem_scan hday
  refine ⟨(hscan day hday).line, ?_⟩
  intro a ha
  rcases List.mem_append.mp ha with ha | ha
  · exact (hscan day hday).activities a ha
  · exact line_nightSleep?_le hscan (Option.mem_toList.mp ha)

/-- **Converted records can be read back.** -/
theorem isReadable_of_convert (h : (c.convert name bytes run).2 = .ok outcome)
    (hsize : bytes.size ≤ Json.largestCount) : ∀ log ∈ outcome.logs, log.IsReadable := by
  intro log hlog
  have hbound := (length_readLines_le bytes).trans hsize
  have hlines := linesWithin_of_convert h log hlog
  refine ⟨?_, hlines.line.trans hbound⟩
  intro a ha
  rw [logs_eq_map_record h] at hlog
  obtain ⟨o, ho, rfl⟩ := List.mem_map.mp hlog
  obtain ⟨hleast, hmost⟩ := (isTimed_of_mem_record ho ha).bounds
  exact ⟨by omega, by omega, (hlines.activities a ha).trans hbound⟩

end Converter

end Daybook
