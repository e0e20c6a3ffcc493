/-
  Daybook/Proofs/Scan/DayLines.lean
  =================================
  **The lines of a day, read one after the other.**  `Block.readAll` reads the
  lines of a block into it.  A block is *begun* once it has an activity or a wake
  line: from then on each activity line is recorded where the one before it ended
  (`readAll_of_begun`).  Before that, header lines still move the start of the
  first activity, and a wake line opens the day (`readAll_of_awaits`).
-/
import Daybook.Proofs.Line
import Daybook.Proofs.Rules.Resolution
import Daybook.Proofs.Scan.Reading

namespace Daybook

open Daybook.Text

/-! ### Lines that have been read -/

/-- Whether the kind of a line is what its text says. -/
def LogLine.IsRead (table : RuleTable) (l : LogLine) : Prop := l.kind = classify table l.text

theorem LogLine.isRead_ofRaw (table : RuleTable) (n : Nat) (raw : String) :
    (LogLine.ofRaw table n raw).IsRead table := by
  simp [LogLine.IsRead]

theorem exists_ofRaw_of_mem_logLines {table : RuleTable} {n : Nat} {lines : List String}
    {l : LogLine} (h : l ∈ logLines table n lines) :
    ∃ number raw, l = LogLine.ofRaw table number raw := by
  induction lines generalizing n with
  | nil => simp [logLines] at h
  | cons raw rest ih =>
    rcases List.mem_cons.mp h with rfl | h
    · exact ⟨n, raw, rfl⟩
    · exact ih h

theorem isRead_of_mem_logLines {table : RuleTable} {n : Nat} {lines : List String} {l : LogLine}
    (h : l ∈ logLines table n lines) : l.IsRead table := by
  obtain ⟨number, raw, rfl⟩ := exists_ofRaw_of_mem_logLines h
  exact LogLine.isRead_ofRaw table number raw

theorem LogLine.IsRead.trimmed_description {table : RuleTable} {l : LogLine}
    {written : WrittenActivity} (h : l.IsRead table) (hl : l.activity? = some written) :
    trimmed written.description = written.description := by
  obtain ⟨number, text, kind⟩ := l
  cases kind with
  | activity found =>
    obtain rfl : found = written := by simpa [LogLine.activity?] using hl
    exact Daybook.trimmed_description h.symm
  | _ => simp [LogLine.activity?] at hl

/-! ### Findings about a line -/

@[simp] theorem ScanSetup.finding_code (setup : ScanSetup) (code : Code) (line : Nat)
    (text : String) (columns : Option (Nat × Nat)) (message : String) :
    (setup.finding code line text columns message).code = code := rfl

@[simp] theorem ScanSetup.finding_line (setup : ScanSetup) (code : Code) (line : Nat)
    (text : String) (columns : Option (Nat × Nat)) (message : String) :
    (setup.finding code line text columns message).line = line := rfl

/-! ### Recording activities -/

namespace RuleTable

/-- The activity that a line records from a start on. -/
def record (table : RuleTable) (start : TimeOfDay) (line : ActivityLine) : Activity :=
  let written := line.written
  let seconds := intervalSeconds start written.endTime
  { start, finish := written.endTime, description := written.description,
    path := (table.resolve written.description seconds).path, seconds,
    remark := written.remark, line := line.number }

/-- The activities that lines record from a start on, each where the one before it ends. -/
def recordFrom (table : RuleTable) (start : TimeOfDay) : List ActivityLine → List Activity
  | [] => []
  | line :: rest => table.record start line :: table.recordFrom line.written.endTime rest

@[simp] theorem finish_record (table : RuleTable) (start : TimeOfDay) (line : ActivityLine) :
    (table.record start line).finish = line.written.endTime := rfl

@[simp] theorem line_record (table : RuleTable) (start : TimeOfDay) (line : ActivityLine) :
    (table.record start line).line = line.number := rfl

theorem exists_of_mem_recordFrom {table : RuleTable} {start : TimeOfDay}
    {lines : List ActivityLine} {a : Activity} (ha : a ∈ table.recordFrom start lines) :
    ∃ begun, ∃ line ∈ lines, a = table.record begun line := by
  induction lines generalizing start with
  | nil => cases ha
  | cons line rest ih =>
    rcases List.mem_cons.mp ha with rfl | ha
    · exact ⟨start, line, List.mem_cons_self, rfl⟩
    · obtain ⟨begun, other, hother, hrecord⟩ := ih ha
      exact ⟨begun, other, List.mem_cons_of_mem _ hother, hrecord⟩

theorem getLast?_recordFrom (table : RuleTable) (start : TimeOfDay) {lines : List ActivityLine}
    {line : ActivityLine} (h : lines.getLast? = some line) :
    ∃ last, (table.recordFrom start lines).getLast? = some (table.record last line) := by
  induction lines generalizing start with
  | nil => cases h
  | cons first rest ih =>
    rw [List.getLast?_cons] at h
    rw [recordFrom, List.getLast?_cons]
    cases hrest : rest.getLast? with
    | none =>
      obtain rfl : rest = [] := List.getLast?_eq_none_iff.mp hrest
      obtain rfl : first = line := Option.some.inj h
      exact ⟨start, rfl⟩
    | some last =>
      rw [hrest] at h
      obtain rfl : last = line := Option.some.inj h
      obtain ⟨earlier, hlast⟩ := ih first.written.endTime hrest
      exact ⟨earlier, by rw [hlast]; rfl⟩

/-- Whether some rule knows a recorded activity. -/
def knows (table : RuleTable) (a : Activity) : Bool :=
  (table.resolve a.description a.seconds).recognized

end RuleTable

namespace Block

/-! ### One line -/

/-- What a block has of its date line. -/
def title (b : Block) : Date × Nat × String := (b.date, b.line, b.dateText)

/-- A header value goes into the flags, the getup time or the remarks, and nowhere else. -/
theorem exists_write_eq (b : Block) (entry : HeaderEntry) :
    ∃ flags getup remarks,
      b.write entry = { b with flags := flags, getup := getup, remarks := remarks } := by
  cases entry with
  | remark text =>
    by_cases h : text.isEmpty = true
    · exact ⟨_, _, _, if_pos h⟩
    · exact ⟨_, _, _, if_neg h⟩
  | status | sleep | exercise | getup => exact ⟨_, _, _, rfl⟩

@[simp] theorem title_write (b : Block) (entry : HeaderEntry) :
    (b.write entry).title = b.title := by
  obtain ⟨flags, getup, remarks, h⟩ := b.exists_write_eq entry
  rw [h]
  rfl

@[simp] theorem activities_write (b : Block) (entry : HeaderEntry) :
    (b.write entry).activities = b.activities := by
  obtain ⟨flags, getup, remarks, h⟩ := b.exists_write_eq entry
  rw [h]

@[simp] theorem wake_write (b : Block) (entry : HeaderEntry) : (b.write entry).wake = b.wake := by
  obtain ⟨flags, getup, remarks, h⟩ := b.exists_write_eq entry
  rw [h]

theorem getup_write_of_read? (b : Block) {l : LogLine} {field : HeaderField} {value : String}
    {column : Nat} {entry : HeaderEntry} (hl : l.kind = .header field value column)
    (hread : HeaderEntry.read? field value = some entry) :
    (b.write entry).getup = l.getup?.or b.getup := by
  cases field with
  | getup =>
    rcases Option.map_eq_some_iff.mp hread with ⟨time, htime, rfl⟩
    simp [write, LogLine.getup?, hl, htime]
  | remark =>
    obtain rfl := Option.some.inj hread
    by_cases h : value.isEmpty <;> simp [write, LogLine.getup?, hl, h]
  | status | sleep | exercise =>
    rcases Option.map_eq_some_iff.mp hread with ⟨flag, -, rfl⟩
    simp [write, LogLine.getup?, hl]

@[simp] theorem title_openWithWake (b : Block) (time : TimeOfDay) (line : Nat) :
    (b.openWithWake time line).title = b.title := rfl

@[simp] theorem title_pushActivity (b : Block) (activity : Activity) :
    (b.pushActivity activity).title = b.title := rfl

@[simp] theorem activities_openWithWake (b : Block) (time : TimeOfDay) (line : Nat) :
    (b.openWithWake time line).activities = b.activities := rfl

@[simp] theorem wake_openWithWake (b : Block) (time : TimeOfDay) (line : Nat) :
    (b.openWithWake time line).wake = some time := rfl

@[simp] theorem activities_pushActivity (b : Block) (activity : Activity) :
    (b.pushActivity activity).activities = b.activities ++ [activity] := rfl

@[simp] theorem wake_pushActivity (b : Block) (activity : Activity) :
    (b.pushActivity activity).wake = b.wake := rfl

@[simp] theorem title_readLine (b : Block) (setup : ScanSetup) (line : Nat) (text : String)
    (kind : LineKind) : (b.readLine setup line text kind).1.title = b.title := by
  cases kind with
  | header field value column =>
    simp only [readLine, readHeader]
    split
    · rfl
    · exact title_write _ _
  | activity written =>
    simp only [readLine, readActivity]
    split
    · exact title_openWithWake b _ _
    · exact title_pushActivity b _
  | _ => rfl

/-- A line that is no activity leaves the activities and the opening of the day, and only a getup
    header changes the getup time. -/
theorem readLine_of_not_activity (b : Block) (setup : ScanSetup) {l : LogLine}
    (hl : l.activity? = none) :
    let next := (b.readLine setup l.number l.text l.kind).1
    next.activities = b.activities ∧ next.wake = b.wake ∧ next.getup = l.getup?.or b.getup := by
  cases hkind : l.kind with
  | header field value column =>
    simp only [readLine, readHeader]
    cases hread : HeaderEntry.read? field value with
    | none =>
      have hgetup : l.getup? = none := by
        cases field <;> simp_all [LogLine.getup?, HeaderEntry.read?]
      simp [hgetup]
    | some entry =>
      refine ⟨activities_write _ _, wake_write _ _, ?_⟩
      exact getup_write_of_read? _ hkind hread
  | activity written => simp [LogLine.activity?, hkind] at hl
  | _ => simp [readLine, LogLine.getup?, hkind]

/-- A wake line opens a day that has no activity and no opening yet. -/
theorem readActivity_of_opens (b : Block) (setup : ScanSetup) (n : Nat) (text : String)
    {written : WrittenActivity} (hwake : setup.table.isWake (trimmed written.description) = true)
    (hb : b.awaitsWake = true) :
    b.readActivity setup n text written = (b.openWithWake written.endTime n, []) := by
  simp [readActivity, nextActivity, RuleTable.isWake_resolve, hwake, hb]

/-- Any other activity line is recorded, and reported when no rule knows it. -/
theorem readActivity_of_not_opens (b : Block) (setup : ScanSetup) (n : Nat) (text : String)
    (written : WrittenActivity)
    (h : (setup.table.isWake (trimmed written.description) && b.awaitsWake) = false) :
    let activity := setup.table.record (b.nextStart setup.dayStart) ⟨n, written⟩
    b.readActivity setup n text written =
      (b.pushActivity activity,
        if setup.table.knows activity then [] else [b.unrecognized setup n text written]) := by
  simp only [readActivity, nextActivity, RuleTable.isWake_resolve, h]
  rfl

/-! ### All lines of a block -/

def readAll (b : Block) (setup : ScanSetup) : List LogLine → Block × List Diagnostic
  | [] => (b, [])
  | l :: rest =>
    let (next, findings) := b.readLine setup l.number l.text l.kind
    let (last, others) := next.readAll setup rest
    (last, findings ++ others)

@[simp] theorem title_readAll (b : Block) (setup : ScanSetup) (lines : List LogLine) :
    (b.readAll setup lines).1.title = b.title := by
  induction lines generalizing b with
  | nil => rfl
  | cons l rest ih => simp [readAll, ih]

theorem awaitsWake_iff (b : Block) :
    b.awaitsWake = true ↔ b.activities = [] ∧ b.wake = none := by
  simp [awaitsWake]

theorem awaitsWake_congr {b b' : Block} (hactivities : b.activities = b'.activities)
    (hwake : b.wake = b'.wake) : b.awaitsWake = b'.awaitsWake := by
  simp [awaitsWake, hactivities, hwake]

@[simp] theorem awaitsWake_pushActivity (b : Block) (activity : Activity) :
    (b.pushActivity activity).awaitsWake = false := by
  simp [awaitsWake, pushActivity]

@[simp] theorem awaitsWake_openWithWake (b : Block) (time : TimeOfDay) (line : Nat) :
    (b.openWithWake time line).awaitsWake = false := by
  simp [awaitsWake, openWithWake]

@[simp] theorem nextStart_pushActivity (b : Block) (activity : Activity) (usual : TimeOfDay) :
    (b.pushActivity activity).nextStart usual = activity.finish := by
  simp [nextStart, pushActivity]

theorem nextStart_of_awaits {b : Block} (hb : b.awaitsWake = true) (usual : TimeOfDay) :
    b.nextStart usual = b.getup.getD usual := by
  obtain ⟨hactivities, hwake⟩ := (awaitsWake_iff b).mp hb
  simp [nextStart, hactivities, hwake]

theorem nextStart_openWithWake {b : Block} (hb : b.awaitsWake = true) (time : TimeOfDay)
    (line : Nat) (usual : TimeOfDay) : (b.openWithWake time line).nextStart usual = time := by
  obtain ⟨hactivities, -⟩ := (awaitsWake_iff b).mp hb
  simp [nextStart, openWithWake, hactivities]

/-- Once a day has begun, its getup time no longer tells where the next activity starts. -/
theorem nextStart_congr {b b' : Block} (hb : b.awaitsWake = false)
    (hactivities : b'.activities = b.activities) (hwake : b'.wake = b.wake) (usual : TimeOfDay) :
    b'.nextStart usual = b.nextStart usual := by
  unfold nextStart
  rw [hactivities, hwake]
  cases hlast : b.activities.getLast? with
  | some last => simp
  | none =>
    cases hopening : b.wake with
    | some time => simp
    | none =>
      have hnone : b.activities = [] := List.getLast?_eq_none_iff.mp hlast
      simp [awaitsWake, hnone, hopening] at hb

end Block

theorem activityLines_cons_of_none {l : LogLine} (hl : l.activity? = none) (rest : List LogLine) :
    activityLines (l :: rest) = activityLines rest := by
  simp [activityLines, LogLine.activityLine?, hl]

theorem activityLines_cons_of_some {l : LogLine} {written : WrittenActivity}
    (hl : l.activity? = some written) (rest : List LogLine) :
    activityLines (l :: rest) = ⟨l.number, written⟩ :: activityLines rest := by
  simp [activityLines, LogLine.activityLine?, hl]

theorem LogLine.kind_of_activity? {l : LogLine} {written : WrittenActivity}
    (hl : l.activity? = some written) : l.kind = .activity written := by
  unfold LogLine.activity? at hl
  split at hl
  next found hkind => rw [hkind, Option.some.inj hl]
  next => cases hl

namespace Block

/-- **The course of a day that has begun.**  Each activity line is recorded where the one before
    it ended, whatever stands between. -/
theorem readAll_of_begun (setup : ScanSetup) (lines : List LogLine) {b : Block}
    (hb : b.awaitsWake = false) :
    (b.readAll setup lines).1.activities =
        b.activities ++
          setup.table.recordFrom (b.nextStart setup.dayStart) (activityLines lines) ∧
      (b.readAll setup lines).1.wake = b.wake := by
  induction lines generalizing b with
  | nil => simp [readAll, activityLines, RuleTable.recordFrom]
  | cons l rest ih =>
    cases hl : l.activity? with
    | none =>
      obtain ⟨hactivities, hwake, -⟩ := readLine_of_not_activity b setup hl
      have hnext := ih ((awaitsWake_congr hactivities hwake).trans hb)
      rw [nextStart_congr hb hactivities hwake, hactivities, hwake] at hnext
      simpa only [readAll, activityLines_cons_of_none hl] using hnext
    | some written =>
      have hstep := readActivity_of_not_opens b setup l.number l.text written
        (by simp [hb])
      have hnext := ih (awaitsWake_pushActivity b
        (setup.table.record (b.nextStart setup.dayStart) ⟨l.number, written⟩))
      simp only [readAll, readLine, LogLine.kind_of_activity? hl, hstep,
        activityLines_cons_of_some hl, RuleTable.recordFrom]
      simpa using hnext

end Block

theorem getupBefore?_cons_of_none {l : LogLine} (hl : l.activity? = none) (rest : List LogLine) :
    getupBefore? (l :: rest) = (getupBefore? rest).or l.getup? := by
  unfold getupBefore?
  rw [List.takeWhile_cons_of_pos (by simp [hl])]
  cases hgetup : l.getup? with
  | none => simp [hgetup]
  | some time => simp [hgetup, List.getLast?_cons]

theorem getupBefore?_cons_of_some {l : LogLine} {written : WrittenActivity}
    (hl : l.activity? = some written) (rest : List LogLine) :
    getupBefore? (l :: rest) = none := by
  simp [getupBefore?, hl]

namespace Block

/-- **The course of a day from its beginning.**  A wake line in front opens the day; the first
    activity starts there, else at the last getup time before it, else at the usual start. -/
theorem readAll_of_awaits (setup : ScanSetup) (lines : List LogLine) {b : Block}
    (hb : b.awaitsWake = true) (hread : ∀ l ∈ lines, l.IsRead setup.table) :
    (b.readAll setup lines).1.activities =
        setup.table.recordFrom
          (((setup.table.openingWake? (activityLines lines)).or
            ((getupBefore? lines).or b.getup)).getD setup.dayStart)
          (setup.table.recordedLines (activityLines lines)) ∧
      (b.readAll setup lines).1.wake = setup.table.openingWake? (activityLines lines) := by
  induction lines generalizing b with
  | nil =>
    obtain ⟨hactivities, hwake⟩ := (awaitsWake_iff b).mp hb
    simp [readAll, activityLines, RuleTable.recordedLines, RuleTable.recordFrom,
      RuleTable.openingWake?, hactivities, hwake]
  | cons l rest ih =>
    have hrest : ∀ l ∈ rest, l.IsRead setup.table := fun l hl => hread l (List.mem_cons_of_mem _ hl)
    cases hl : l.activity? with
    | none =>
      obtain ⟨hactivities, hwake, hgetup⟩ := readLine_of_not_activity b setup hl
      have hnext := ih ((awaitsWake_congr hactivities hwake).trans hb) hrest
      rw [hgetup] at hnext
      simpa only [readAll, activityLines_cons_of_none hl, getupBefore?_cons_of_none hl,
        Option.or_assoc] using hnext
    | some written =>
      have htrimmed := (hread l List.mem_cons_self).trimmed_description hl
      simp only [readAll, readLine, LogLine.kind_of_activity? hl, activityLines_cons_of_some hl,
        getupBefore?_cons_of_some hl, RuleTable.openingWake?, RuleTable.recordedLines,
        RuleTable.wakes]
      by_cases hopens : setup.table.isWake written.description = true
      · -- the line opens the day, and the rest of the day begins there
        have hstep := readActivity_of_opens b setup l.number l.text
          (by rw [htrimmed]; exact hopens) hb
        have hnext := readAll_of_begun setup rest
          (awaitsWake_openWithWake b written.endTime l.number)
        obtain ⟨hactivities, -⟩ := (awaitsWake_iff b).mp hb
        rw [nextStart_openWithWake hb] at hnext
        simpa [hstep, hopens, hactivities] using hnext
      · -- the line is the first activity, and starts where the header says
        have hstep := readActivity_of_not_opens b setup l.number l.text written
          (by simp [htrimmed, hopens])
        have hnext := readAll_of_begun setup rest (awaitsWake_pushActivity b
          (setup.table.record (b.nextStart setup.dayStart) ⟨l.number, written⟩))
        obtain ⟨hactivities, hwake⟩ := (awaitsWake_iff b).mp hb
        simpa [hstep, hopens, hactivities, hwake, RuleTable.recordFrom, nextStart_of_awaits hb]
          using hnext

end Block

end Daybook
