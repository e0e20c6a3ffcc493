/-
  Daybook/Proofs/Scan/Headers.lean
  ================================
  **What a day says in its header.**  Header lines count wherever they stand among
  the activities of a day: of two values of a field the later one, of remarks all
  of them.  A wake line that opens the day says that it has slept, and when it got
  up if no getup header does.  Each line adds its word to what the block has
  (`flags_readLine`, `readLine_of_not_activity`), so a block has what its lines say
  last (`flags_readAll`, `getup_readAll_of_awaits`, `sleep_readAll_of_awaits`).  Where
  a day ends, the fields that the rules ask for and that have no value are reported,
  and nowhere else (`scan_headers`).
-/
import Daybook.Proofs.Line.Kinds
import Daybook.Proofs.Rules.Table
import Daybook.Proofs.Scan.Rejected

namespace Daybook

/-! ### What the lines of a block say -/

def HeaderEntry.flag? : HeaderEntry → Option Bool
  | .status value | .sleep value | .exercise value => some value
  | .getup _ | .remark _ => none

namespace LogLine

/-- The yes or no that a header line of `field` says, if its value is one. -/
def flag? (field : HeaderField) (l : LogLine) : Option Bool :=
  match l.kind with
  | .header found value _ =>
    if found = field then (HeaderEntry.read? field value).bind HeaderEntry.flag? else none
  | _ => none

/-- The text of a remark line, if it has one. -/
def remark? (l : LogLine) : Option String :=
  match l.kind with
  | .header .remark value _ => if value.isEmpty then none else some value
  | _ => none

end LogLine

section

variable {table : RuleTable} {l : LogLine}

theorem LogLine.IsRead.trim_value (h : l.IsRead table) {field : HeaderField} {value : String}
    {column : Nat} (hl : l.kind = .header field value column) :
    Text.trim value.toList = value.toList := by
  obtain ⟨lead, rest, -, -, rfl⟩ := exists_append_of_header (h.symm.trans hl)
  simp

/-- A header line says yes or no with one digit. -/
theorem LogLine.IsRead.flag?_eq_some_iff (h : l.IsRead table) {field : HeaderField}
    {flag : Bool} :
    l.flag? field = some flag ↔ field ∈ [HeaderField.status, .sleep, .exercise] ∧
      ∃ column, l.kind = .header field (if flag then "1" else "0") column := by
  have hflag (value : String) :
      (HeaderEntry.read? field value).bind HeaderEntry.flag? = some flag ↔
        field ∈ [HeaderField.status, .sleep, .exercise] ∧ readFlag? value = some flag := by
    cases field with
    | status | sleep | exercise =>
      cases hread : readFlag? value <;> simp [HeaderEntry.read?, HeaderEntry.flag?, hread]
    | getup =>
      cases hread : TimeOfDay.ofHHMM? value.toList <;>
        simp [HeaderEntry.read?, HeaderEntry.flag?, hread]
    | remark => simp [HeaderEntry.read?, HeaderEntry.flag?]
  rw [flag?]
  cases hkind : l.kind with
  | header found value column =>
    dsimp only
    split
    next hfound =>
      rw [hfound, hflag, readFlag?_eq_some_iff_of_trim (h.trim_value hkind)]
      simp
    next hfound => simp [hfound]
  | _ => simp

/-- A getup header gives the time that its four digits say. -/
theorem LogLine.getup?_eq_some_iff {time : TimeOfDay} :
    l.getup? = some time ↔ time.IsMinute ∧
      ∃ column, l.kind = .header .getup (String.ofList time.hhmm) column := by
  rw [getup?]
  split
  next value column hkind =>
    rw [TimeOfDay.ofHHMM?_eq_some_iff, hkind]
    simp [String.ext_iff]
  next hkind =>
    simp only [reduceCtorEq, false_iff, not_and, not_exists]
    intro _ column
    exact hkind _ column

end

/-- What the last header line of `field` with a value says. -/
def lastFlag? (field : HeaderField) (block : List LogLine) : Option Bool :=
  (block.filterMap (LogLine.flag? field)).getLast?

/-- The time of the last getup header that gives one. -/
def lastGetup? (block : List LogLine) : Option TimeOfDay :=
  (block.filterMap LogLine.getup?).getLast?

/-- What the lines of a block say on sleep, one after the other: its header lines, and the wake line
    that opens the day. -/
def sleepValues (table : RuleTable) (block : List LogLine) : List Bool :=
  let opening := (table.openingWake? (activityLines block)).map fun _ => true
  (block.takeWhile fun l => l.activity?.isNone).filterMap (LogLine.flag? .sleep) ++
    opening.toList ++
    (block.dropWhile fun l => l.activity?.isNone).filterMap (LogLine.flag? .sleep)

/-- The remarks of a block, a line for each, unless there is none. -/
def joinedRemark? (block : List LogLine) : Option String :=
  let remarks := block.filterMap LogLine.remark?
  if remarks.isEmpty then none else some ("\n".intercalate remarks)

/-- Whether a record says nothing on a field; a remark is never missed. -/
def DailyLog.lacks (log : DailyLog) : HeaderField → Bool
  | .status => log.flags.status.isNone
  | .sleep => log.flags.sleep.isNone
  | .exercise => log.flags.exercise.isNone
  | .getup => log.getup.isNone
  | .remark => false

/-- The last of some values and, before them, of others. -/
theorem getLast?_filterMap_cons_or {α β : Type} (f : α → Option β) (a : α) (rest : List α)
    (before : Option β) :
    ((a :: rest).filterMap f).getLast?.or before =
      (rest.filterMap f).getLast?.or ((f a).or before) := by
  cases ha : f a with
  | none => simp [ha]
  | some b =>
    cases hrest : (rest.filterMap f).getLast? <;> simp [ha, hrest, List.getLast?_cons]

/-! ### One line -/

def DayFlags.get? (flags : DayFlags) : HeaderField → Option Bool
  | .status => flags.status
  | .sleep => flags.sleep
  | .exercise => flags.exercise
  | .getup | .remark => none

namespace LogLine

theorem flag?_of_activity {l : LogLine} {written : WrittenActivity}
    (hl : l.activity? = some written) (field : HeaderField) : l.flag? field = none := by
  rw [flag?, kind_of_activity? hl]

theorem getup?_of_activity {l : LogLine} {written : WrittenActivity}
    (hl : l.activity? = some written) : l.getup? = none := by
  rw [getup?, kind_of_activity? hl]

theorem remark?_of_activity {l : LogLine} {written : WrittenActivity}
    (hl : l.activity? = some written) : l.remark? = none := by
  rw [remark?, kind_of_activity? hl]

end LogLine

namespace Block

variable {b : Block} {setup : ScanSetup} {l : LogLine} {lines : List LogLine}

theorem flags_write_of_read? {found : HeaderField} {value : String} {column : Nat}
    {entry : HeaderEntry} (hl : l.kind = .header found value column)
    (hread : HeaderEntry.read? found value = some entry) (field : HeaderField) :
    (b.write entry).flags.get? field = (l.flag? field).or (b.flags.get? field) := by
  unfold LogLine.flag?
  rw [hl]
  cases found with
  | status | sleep | exercise =>
    rcases Option.map_eq_some_iff.mp hread with ⟨flag, -, rfl⟩
    cases field <;> simp [write, DayFlags.get?, hread, HeaderEntry.flag?]
  | getup =>
    rcases Option.map_eq_some_iff.mp hread with ⟨time, -, rfl⟩
    cases field <;> simp [write, DayFlags.get?, hread, HeaderEntry.flag?]
  | remark =>
    obtain rfl := Option.some.inj hread
    have hflags : (b.write (.remark value)).flags = b.flags := by
      by_cases h : value.isEmpty <;> simp [write, h]
    cases field <;> simp [hflags, DayFlags.get?, hread, HeaderEntry.flag?]

theorem remarks_write_of_read? {found : HeaderField} {value : String} {column : Nat}
    {entry : HeaderEntry} (hl : l.kind = .header found value column)
    (hread : HeaderEntry.read? found value = some entry) :
    (b.write entry).remarks = b.remarks ++ l.remark?.toList := by
  unfold LogLine.remark?
  rw [hl]
  cases found with
  | remark =>
    obtain rfl := Option.some.inj hread
    by_cases h : value.isEmpty <;> simp [write, h]
  | status | sleep | exercise | getup =>
    rcases Option.map_eq_some_iff.mp hread with ⟨_, -, rfl⟩
    simp [write]

/-- A line that is no activity adds what it says to the flags and the remarks. -/
theorem flags_readLine (hl : l.activity? = none) :
    let next := (b.readLine setup l.number l.text l.kind).1
    (∀ field, next.flags.get? field = (l.flag? field).or (b.flags.get? field)) ∧
      next.remarks = b.remarks ++ l.remark?.toList := by
  cases hkind : l.kind with
  | header found value column =>
    simp only [readLine, readHeader]
    cases hread : HeaderEntry.read? found value with
    | none =>
      -- a value that the field does not accept says nothing
      have hremark : l.remark? = none := by
        cases found <;> simp_all [LogLine.remark?, HeaderEntry.read?]
      refine ⟨?_, by simp [hremark]⟩
      intro field
      have hflag : l.flag? field = none := by
        simp only [LogLine.flag?, hkind]
        split
        next hfield => rw [← hfield, hread, Option.bind_none]
        next => rfl
      rw [hflag, Option.none_or]
    | some entry =>
      exact ⟨flags_write_of_read? hkind hread, remarks_write_of_read? hkind hread⟩
  | activity written => simp [LogLine.activity?, hkind] at hl
  | _ => simp [readLine, LogLine.flag?, LogLine.remark?, hkind]

/-! ### Activity lines -/

section

variable {n : Nat} {text : String} {written : WrittenActivity}

@[simp] theorem awaitsWake_readActivity :
    (b.readActivity setup n text written).1.awaitsWake = false := by
  simp only [readActivity]
  split
  · exact awaitsWake_openWithWake b _ _
  · exact awaitsWake_pushActivity b _

@[simp] theorem remarks_readActivity :
    (b.readActivity setup n text written).1.remarks = b.remarks := by
  simp only [readActivity]
  split <;> rfl

/-- Only what opens a day changes its flags, and only that of sleep. -/
theorem flags_readActivity {field : HeaderField} (h : b.awaitsWake = false ∨ field ≠ .sleep) :
    (b.readActivity setup n text written).1.flags.get? field = b.flags.get? field := by
  simp only [readActivity]
  split
  next hopens =>
    have hfield : field ≠ .sleep := by
      rcases h with hb | hfield
      · simp [hb] at hopens
      · exact hfield
    cases field with
    | sleep => exact absurd rfl hfield
    | status | exercise | getup | remark => rfl
  next => rfl

theorem getup_readActivity_of_begun (hb : b.awaitsWake = false) :
    (b.readActivity setup n text written).1.getup = b.getup := by
  simp only [readActivity, hb, Bool.and_false, Bool.false_eq_true, if_false]
  rfl

end

/-! ### Many lines -/

/-- **Remarks add up.** -/
theorem remarks_readAll (b : Block) (setup : ScanSetup) (lines : List LogLine) :
    (b.readAll setup lines).1.remarks = b.remarks ++ lines.filterMap LogLine.remark? := by
  induction lines generalizing b with
  | nil => simp [readAll]
  | cons l rest ih =>
    rw [readAll, ih]
    cases hl : l.activity? with
    | none =>
      rw [(flags_readLine hl).2]
      cases hremark : l.remark? <;> simp [hremark]
    | some written =>
      simp [LogLine.kind_of_activity? hl, readLine, LogLine.remark?_of_activity hl]

/-- **The last of the values of a field counts**, but for what the opening of a day says on
    sleep. -/
theorem flags_readAll (field : HeaderField) (h : b.awaitsWake = false ∨ field ≠ .sleep) :
    (b.readAll setup lines).1.flags.get? field =
      (lastFlag? field lines).or (b.flags.get? field) := by
  induction lines generalizing b with
  | nil => simp [readAll, lastFlag?]
  | cons l rest ih =>
    unfold lastFlag? at ih ⊢
    rw [readAll, getLast?_filterMap_cons_or]
    cases hl : l.activity? with
    | none =>
      obtain ⟨hactivities, hwake, -⟩ := readLine_of_not_activity b setup hl
      dsimp only
      rw [ih, (flags_readLine hl).1]
      rwa [awaitsWake_congr hactivities hwake]
    | some written =>
      dsimp only
      rw [LogLine.kind_of_activity? hl, readLine, ih (.inl awaitsWake_readActivity),
        flags_readActivity h, LogLine.flag?_of_activity hl, Option.none_or]

theorem getup_readAll_of_begun (hb : b.awaitsWake = false) :
    (b.readAll setup lines).1.getup = (lastGetup? lines).or b.getup := by
  induction lines generalizing b with
  | nil => simp [readAll, lastGetup?]
  | cons l rest ih =>
    unfold lastGetup? at ih ⊢
    rw [readAll, getLast?_filterMap_cons_or]
    cases hl : l.activity? with
    | none =>
      obtain ⟨hactivities, hwake, hgetup⟩ := readLine_of_not_activity b setup hl
      dsimp only
      rw [ih ((awaitsWake_congr hactivities hwake).trans hb), hgetup]
    | some written =>
      dsimp only
      rw [LogLine.kind_of_activity? hl, readLine, ih awaitsWake_readActivity,
        getup_readActivity_of_begun hb, LogLine.getup?_of_activity hl, Option.none_or]

end Block

theorem sleepValues_cons_of_none {table : RuleTable} {l : LogLine} (hl : l.activity? = none)
    (rest : List LogLine) :
    sleepValues table (l :: rest) = (l.flag? .sleep).toList ++ sleepValues table rest := by
  unfold sleepValues
  rw [List.takeWhile_cons_of_pos (by simp [hl]), List.dropWhile_cons_of_pos (by simp [hl]),
    activityLines_cons_of_none hl]
  cases hflag : l.flag? .sleep <;> simp [hflag]

theorem sleepValues_cons_of_some {table : RuleTable} {l : LogLine} {written : WrittenActivity}
    (hl : l.activity? = some written) (rest : List LogLine) :
    sleepValues table (l :: rest) =
      (if table.isWake written.description then [true] else []) ++
        rest.filterMap (LogLine.flag? .sleep) := by
  unfold sleepValues
  rw [List.takeWhile_cons_of_neg (by simp [hl]), List.dropWhile_cons_of_neg (by simp [hl]),
    activityLines_cons_of_some hl, RuleTable.openingWake?, RuleTable.wakes]
  by_cases hwake : table.isWake written.description = true <;>
    simp [hwake, LogLine.flag?_of_activity hl]

namespace Block

/-- **What the opening of a day says**: when it got up, unless a header says it, and that it has
    slept, unless a header says otherwise later. -/
theorem getup_sleep_readAll_of_awaits {b : Block} {setup : ScanSetup} {lines : List LogLine}
    (hb : b.awaitsWake = true) (hread : ∀ l ∈ lines, l.IsRead setup.table) :
    (b.readAll setup lines).1.getup =
        (lastGetup? lines).or (b.getup.or (setup.table.openingWake? (activityLines lines))) ∧
      (b.readAll setup lines).1.flags.sleep =
        (sleepValues setup.table lines).getLast?.or b.flags.sleep := by
  induction lines generalizing b with
  | nil => simp [readAll, lastGetup?, sleepValues, activityLines, RuleTable.openingWake?]
  | cons l rest ih =>
    have hrest : ∀ l ∈ rest, l.IsRead setup.table := fun l hl => hread l (List.mem_cons_of_mem _ hl)
    have hlast (before : Option TimeOfDay) : (lastGetup? (l :: rest)).or before =
        (lastGetup? rest).or (l.getup?.or before) := getLast?_filterMap_cons_or _ _ _ _
    rw [readAll, hlast]
    cases hl : l.activity? with
    | none =>
      obtain ⟨hactivities, hwake, hgetup⟩ := readLine_of_not_activity b setup hl
      have hsleep : (b.readLine setup l.number l.text l.kind).1.flags.sleep =
          (l.flag? .sleep).or b.flags.sleep := (flags_readLine hl).1 .sleep
      obtain ⟨hnextGetup, hnextSleep⟩ := ih ((awaitsWake_congr hactivities hwake).trans hb) hrest
      dsimp only
      rw [hnextGetup, hnextSleep, hgetup, activityLines_cons_of_none hl,
        sleepValues_cons_of_none hl, List.getLast?_append, Option.or_assoc, Option.or_assoc]
      refine ⟨rfl, ?_⟩
      have hsaid : (l.flag? .sleep).toList.getLast? = l.flag? .sleep := by
        cases l.flag? .sleep <;> rfl
      rw [hsaid, hsleep]
    | some written =>
      have htrimmed := (hread l List.mem_cons_self).trimmed_description hl
      rw [LogLine.getup?_of_activity hl, Option.none_or, activityLines_cons_of_some hl,
        sleepValues_cons_of_some hl, LogLine.kind_of_activity? hl, readLine,
        RuleTable.openingWake?, RuleTable.wakes]
      dsimp only
      by_cases hopens : setup.table.isWake written.description = true
      · -- the line opens the day
        have hstep := readActivity_of_opens b setup l.number l.text
          (by rw [htrimmed]; exact hopens) hb
        have hbegun := awaitsWake_openWithWake b written.endTime l.number
        rw [hstep, getup_readAll_of_begun hbegun, if_pos hopens, if_pos hopens,
          List.getLast?_append, Option.or_assoc]
        exact ⟨rfl, flags_readAll .sleep (.inl hbegun)⟩
      · -- the line is the first activity
        have hstep := readActivity_of_not_opens b setup l.number l.text written
          (by simp [htrimmed, hopens])
        have hbegun := awaitsWake_pushActivity b
          (setup.table.record (b.nextStart setup.dayStart) ⟨l.number, written⟩)
        rw [hstep, getup_readAll_of_begun hbegun, if_neg hopens, if_neg hopens, Option.or_none,
          List.nil_append]
        exact ⟨rfl, flags_readAll .sleep (.inl hbegun)⟩

end Block

/-! ### Where a day ends -/

/-- What a line or the end of a log says if it ends a day: the day, and what is missing in its
    header. -/
def closing? (said : Option ScannedDay × List Diagnostic) : Option (ScannedDay × List Diagnostic) :=
  said.1.map fun day => (day, withCode .missingHeader said.2)

/-- An opened day at its end, and what is missing in it. -/
def Opening.closed (o : Opening) (setup : ScanSetup) : ScannedDay × List Diagnostic :=
  (o.start.readAll setup o.place.block).1.close setup.table setup.file

/-- The open day, if there is one, after the lines up to the next date line. -/
def Phase.closed (setup : ScanSetup) (lines : List LogLine) :
    Phase → List (ScannedDay × List Diagnostic)
  | .inDay block => [(block.readAll setup lines).1.close setup.table setup.file]
  | .beforeFirstDate | .skipping => []

theorem Phase.closed_cons {setup : ScanSetup} {s : Scanner} {n : Nat} {raw : String}
    (hl : (LogLine.ofRaw setup.table n raw).isDate = false) (rest : List LogLine) :
    (s.step setup n raw).scanner.phase.closed setup rest =
      s.phase.closed setup (LogLine.ofRaw setup.table n raw :: rest) := by
  cases hphase : s.phase with
  | beforeFirstDate => simp only [Scanner.step_beforeFirstDate hphase hl, hphase, closed]
  | skipping => simp only [Scanner.step_skipping hphase hl, hphase, closed]
  | inDay block =>
    simp only [Scanner.step_inDay hphase hl, closed, Block.readAll, LogLine.number_ofRaw,
      LogLine.text_ofRaw, LogLine.kind_ofRaw]

/-- The day that a place opens, if any, ends where its block does. -/
theorem Phase.closed_begun (setup : ScanSetup) (p : Place) :
    (p.begun setup.fallbackYear).closed setup p.block =
      (p.opening? setup.fallbackYear).toList.map fun o => o.closed setup := by
  unfold Place.begun
  cases ho : p.opening? setup.fallbackYear with
  | none => rfl
  | some o =>
    obtain ⟨rfl, -, -⟩ := Place.opening?_eq_some.mp ho
    rfl

theorem filterMap_singleton {α β : Type} (f : α → Option β) (a : α) :
    [a].filterMap f = (f a).toList := by
  cases ha : f a <;> simp [ha]

namespace Scanner

theorem closing?_finish (s : Scanner) (setup : ScanSetup) (others : List Diagnostic)
    (hothers : ∀ d ∈ others, d.code ≠ .missingHeader) :
    (closing? ((s.finish setup).1, (s.finish setup).2 ++ others)).toList =
      s.phase.closed setup [] := by
  unfold closing? finish
  cases hphase : s.phase with
  | beforeFirstDate => rfl
  | skipping => rfl
  | inDay block =>
    have hmissing : ∀ d ∈ (block.close setup.table setup.file).2, d.code = .missingHeader :=
      fun d hd => Block.code_of_mem_close hd
    simp only [withCode_append, withCode_eq_nil hothers, withCode_of_code hmissing]
    simp [Phase.closed, Block.readAll]

theorem finish_eq_nil {s : Scanner} {setup : ScanSetup} (h : (s.finish setup).1 = none) :
    (s.finish setup).2 = [] := by
  unfold finish at h ⊢
  cases hphase : s.phase with
  | beforeFirstDate => rfl
  | skipping => rfl
  | inDay block =>
    rw [hphase] at h
    cases h

/-- What a date line raises on its own date is no missing header. -/
theorem code_ne_of_mem_beginDay {s : Scanner} {setup : ScanSetup} {n : Nat} {text : String}
    {year : Option Int} {month day : Nat} {d : Diagnostic}
    (hd : d ∈ (s.beginDay setup n text year month day).2) : d.code ≠ .missingHeader := by
  intro hcode
  have hdate := (mem_beginDay hd).1
  rw [hcode] at hdate
  exact absurd hdate (by decide)

theorem closing?_step_of_date (s : Scanner) {setup : ScanSetup} {n : Nat} {raw : String}
    (hl : (LogLine.ofRaw setup.table n raw).isDate = true) :
    (closing? ((s.step setup n raw).day, (s.step setup n raw).findings)).toList =
      s.phase.closed setup [] := by
  obtain ⟨year, month, day, hkind⟩ := LogLine.exists_of_isDate hl
  rw [LogLine.kind_ofRaw] at hkind
  rw [step_of_date s hkind]
  exact s.closing?_finish setup _ fun d hd => code_ne_of_mem_beginDay hd

/-- **The days that are still to end.**  From any point on, the open day ends at the next date line,
    and the days that the lines to come open end where their blocks end. -/
theorem closing?_trace {s : Scanner} {setup : ScanSetup} {done : List LogLine}
    (h : s.Remembers setup.fallbackYear done) (n : Nat) (lines : List String) :
    let log := logLines setup.table n lines
    (s.trace setup n lines).filterMap closing? =
      s.phase.closed setup (log.takeWhile fun l => !l.isDate) ++
        (openingsFrom setup.fallbackYear done log).map fun o => o.closed setup := by
  induction lines generalizing s done n with
  | nil =>
    have hend := s.closing?_finish setup [] (by simp)
    rw [List.append_nil] at hend
    simp only [trace, filterMap_singleton, logLines, List.takeWhile_nil, openingsFrom, placesFrom,
      List.filterMap_nil, List.map_nil, List.append_nil]
    exact hend
  | cons raw rest ih =>
    have hrest := ih (h.step n raw) (n + 1)
    simp only [trace, logLines, openingsFrom_cons]
    generalize hlog : logLines setup.table (n + 1) rest = log at hrest ⊢
    cases hl : (LogLine.ofRaw setup.table n raw).isDate with
    | false =>
      obtain ⟨hday, -, -, -⟩ := step_of_not_date (s := s) hl []
      have hopening : Place.opening? setup.fallbackYear
          ⟨done, LogLine.ofRaw setup.table n raw, log⟩ = none :=
        Place.opening?_of_not_date _ hl
      have hnone : closing? ((s.step setup n raw).day, (s.step setup n raw).findings) = none := by
        rw [closing?, hday, Option.map_none]
      rw [List.filterMap_cons_none hnone, hrest, Phase.closed_cons hl, hopening,
        List.takeWhile_cons_of_pos (by simp [hl])]
      rfl
    | true =>
      -- the open day ends here, and what the line opens ends where its block does
      obtain ⟨p, hp⟩ : ∃ p : Place, p = ⟨done, LogLine.ofRaw setup.table n raw, log⟩ := ⟨_, rfl⟩
      have hline : p.line = LogLine.ofRaw setup.table n raw := by rw [hp]
      obtain ⟨year, month, day, hkind⟩ := LogLine.exists_of_isDate hl
      rw [← hline] at hkind
      obtain ⟨-, -, hphase⟩ := beginDay_spec h (by rw [hp]) hkind
      have hopened := Phase.closed_begun setup p
      rw [← hphase] at hopened
      have hnext : (s.step setup n raw).scanner =
          (s.beginDay setup p.line.number p.line.text year month day).1 := by
        rw [hline, LogLine.kind_ofRaw] at hkind
        rw [step_of_date s hkind, hline, LogLine.number_ofRaw, LogLine.text_ofRaw]
      have hblock : p.block = log.takeWhile fun l => !l.isDate := by rw [hp, Place.block]
      rw [← List.singleton_append, List.filterMap_append, filterMap_singleton,
        s.closing?_step_of_date hl, hrest, List.map_append,
        List.takeWhile_cons_of_neg (by simp [hl]), ← hp, ← hopened, hnext, hblock]

/-- A line that ends no day says nothing about a missing header. -/
theorem withCode_missingHeader_step {s : Scanner} {setup : ScanSetup} {n : Nat} {raw : String}
    (h : (s.step setup n raw).day = none) :
    withCode .missingHeader (s.step setup n raw).findings = [] := by
  cases hl : (LogLine.ofRaw setup.table n raw).isDate with
  | true =>
    obtain ⟨year, month, day, hkind⟩ := LogLine.exists_of_isDate hl
    rw [LogLine.kind_ofRaw] at hkind
    rw [step_of_date s hkind] at h ⊢
    dsimp only at h ⊢
    rw [finish_eq_nil h, List.nil_append]
    exact withCode_eq_nil fun d hd => code_ne_of_mem_beginDay hd
  | false =>
    apply withCode_eq_nil
    intro d hd
    cases hphase : s.phase with
    | beforeFirstDate =>
      rw [step_beforeFirstDate hphase hl] at hd
      dsimp only at hd
      rw [code_of_mem_strayFindings hd]
      decide
    | skipping =>
      rw [step_skipping hphase hl] at hd
      dsimp only at hd
      cases hd
    | inDay block =>
      rw [step_inDay hphase hl] at hd
      dsimp only at hd
      have hcode := Block.code_of_mem_readLine hd
      rintro hmissing
      rw [hmissing] at hcode
      exact absurd hcode (by decide)

theorem withCode_missingHeader_trace {s : Scanner} {setup : ScanSetup} {n : Nat}
    {lines : List String} {said : Option ScannedDay × List Diagnostic}
    (hsaid : said ∈ s.trace setup n lines) (h : said.1 = none) :
    withCode .missingHeader said.2 = [] := by
  induction lines generalizing s n with
  | nil =>
    rw [trace, List.mem_singleton] at hsaid
    rw [hsaid] at h ⊢
    rw [finish_eq_nil h, withCode_nil]
  | cons raw rest ih =>
    rw [trace, List.mem_cons] at hsaid
    rcases hsaid with hsaid | hsaid
    · rw [hsaid] at h ⊢
      dsimp only at h ⊢
      exact withCode_missingHeader_step h
    · exact ih hsaid

end Scanner

theorem Block.lacks_log (b : Block) (field : HeaderField) :
    b.log.lacks field = !b.hasValue field := by
  cases field with
  | remark => rfl
  | status | sleep | exercise | getup => exact (Option.not_isSome _).symm

namespace Opening

variable {setup : ScanSetup} {lines : List String} {o : Opening}

/-- **The header of an opened day**, as the lines of its block say. -/
theorem header_closed (ho : o ∈ setup.openings lines) :
    let block := o.place.block
    let log := (o.closed setup).1.log
    log.flags = {
        status := lastFlag? .status block
        sleep := (sleepValues setup.table block).getLast?
        exercise := lastFlag? .exercise block } ∧
      log.getup = (lastGetup? block).or (setup.table.openingWake? (activityLines block)) ∧
      log.remark = joinedRemark? block := by
  intro block log
  have hread : ∀ l ∈ block, l.IsRead setup.table :=
    fun l hl => Place.isRead_of_mem_block (mem_openings.mp ho).1 hl
  have hawaits : o.start.awaitsWake = true := rfl
  obtain ⟨hgetup, hsleep⟩ := Block.getup_sleep_readAll_of_awaits hawaits hread
  have hstatus : log.flags.status = (lastFlag? .status block).or none :=
    Block.flags_readAll .status (.inr (by decide))
  have hexercise : log.flags.exercise = (lastFlag? .exercise block).or none :=
    Block.flags_readAll .exercise (.inr (by decide))
  have hremarks : (o.start.readAll setup block).1.remarks = block.filterMap LogLine.remark? :=
    o.start.remarks_readAll setup block
  refine ⟨?flags, hgetup, ?remark⟩
  case flags =>
    have hsplit : log.flags = ⟨log.flags.status, log.flags.sleep, log.flags.exercise⟩ := rfl
    have hslept : log.flags.sleep = (sleepValues setup.table block).getLast?.or none := hsleep
    rw [hsplit, hstatus, hslept, hexercise, Option.or_none, Option.or_none, Option.or_none]
  case remark =>
    have htext : log.remark = (o.start.readAll setup block).1.remarkText := rfl
    rw [htext, Block.remarkText, hremarks, joinedRemark?]

/-- **The headers that an opened day misses.** -/
theorem missing_closed (o : Opening) (setup : ScanSetup) :
    let log := (o.closed setup).1.log
    (o.closed setup).2 = (setup.table.headerOrder.filter log.lacks).map fun field =>
      setup.finding .missingHeader log.line o.place.line.text none
        s!"{log.date.text} has no '{field.name}' header" := by
  intro log
  let b := (o.start.readAll setup o.place.block).1
  have htext : b.dateText = o.place.line.text :=
    congrArg (fun title => title.2.2) (o.start.title_readAll setup o.place.block)
  have hfields : b.missingFields setup.table = setup.table.headerOrder.filter log.lacks :=
    List.filter_congr fun field _ => (b.lacks_log field).symm
  have hmissing : (o.closed setup).2 =
      (b.missingFields setup.table).map (b.missingHeader setup.file) := rfl
  rw [hmissing, hfields]
  apply List.map_congr_left
  intro field _
  rw [Block.missingHeader, htext]
  rfl

end Opening

/-- **What the days of a scan say in their headers.**  The days are those that some line or the end
    of the log ends.  Of each day, the last header line of a yes-or-no field that has a value says
    it, wherever it stands in the block of the day; so does the last getup header, else the wake
    line that opens the day; on sleep, that wake line says yes at its place among the header lines;
    and the remarks that are not blank add up.  Where the day ends, the fields of the header order
    that have no value are reported at its date line, in that order; a line that ends no day
    reports none.  A value is `1` or `0` for yes or no, and four digits for a time.  A table made
    from a configuration lists each field once. -/
theorem scan_headers (setup : ScanSetup) (lines : List String) :
    let table := setup.table
    let ended := (setup.trace lines).filterMap closing?
    (setup.scan lines).1 = ended.map Prod.fst ∧
      withCode .missingHeader (setup.scan lines).2 = ended.flatMap Prod.snd ∧
      (∀ said ∈ setup.trace lines, said.1 = none → withCode .missingHeader said.2 = []) ∧
      List.Forall₂
        (fun (o : Opening) ((day, missing) : ScannedDay × List Diagnostic) =>
          let block := o.place.block
          let log := day.log
          log.date = o.date ∧ log.line = o.place.line.number ∧
            log.flags = {
              status := lastFlag? .status block
              sleep := (sleepValues table block).getLast?
              exercise := lastFlag? .exercise block } ∧
            log.getup = (lastGetup? block).or (table.openingWake? (activityLines block)) ∧
            log.remark = joinedRemark? block ∧
            missing = (table.headerOrder.filter log.lacks).map fun field =>
              setup.finding .missingHeader log.line o.place.line.text none
                s!"{log.date.text} has no '{field.name}' header")
        (setup.openings lines) ended ∧
      (∀ l ∈ logLines table 1 lines,
        (∀ field flag, l.flag? field = some flag ↔
          field ∈ [HeaderField.status, .sleep, .exercise] ∧
            ∃ column, l.kind = .header field (if flag then "1" else "0") column) ∧
        ∀ time, l.getup? = some time ↔
          time.IsMinute ∧ ∃ column, l.kind = .header .getup (String.ofList time.hhmm) column) ∧
      ∀ config, RuleTable.ofConfig config = .ok table → table.headerOrder.Nodup := by
  intro table ended
  have hended : ended = (setup.openings lines).map fun o => o.closed setup :=
    Scanner.closing?_trace (Scanner.remembers_nil setup.fallbackYear) 1 lines
  have hothers : ∀ said ∈ setup.trace lines, said.1 = none →
      withCode .missingHeader said.2 = [] :=
    fun said hsaid => Scanner.withCode_missingHeader_trace hsaid
  refine ⟨?days, ?missing, hothers, ?headers, ?values, ?order⟩
  case days =>
    rw [hended, days_scan, List.map_map]
    rfl
  case missing =>
    have hflat : ended = (setup.trace lines).flatMap fun said => (closing? said).toList :=
      List.filterMap_eq_flatMap_toList _ _
    rw [setup.scan_eq_trace, withCode_flatMap, hflat, List.flatMap_assoc]
    apply List.flatMap_congr
    rintro ⟨day, findings⟩ hsaid
    cases day with
    | none => exact hothers _ hsaid rfl
    | some day => simp [closing?]
  case headers =>
    rw [hended, List.forall₂_map_right_iff]
    apply List.forall₂_same.mpr
    intro o ho
    obtain ⟨hflags, hgetup, hremark⟩ := Opening.header_closed ho
    have hdate : (o.closed setup).1.log.date = o.date := o.date_read setup
    have hline : (o.closed setup).1.log.line = o.place.line.number := o.line_read setup
    exact ⟨hdate, hline, hflags, hgetup, hremark, o.missing_closed setup⟩
  case values =>
    intro l hl
    refine ⟨?_, fun time => LogLine.getup?_eq_some_iff⟩
    intro field flag
    exact (isRead_of_mem_logLines hl).flag?_eq_some_iff
  case order =>
    intro config hconfig
    exact RuleTable.nodup_headerOrder_of_ofConfig hconfig

/-- Late and repeated headers, a value that is none, and an empty remark. -/
example :
    let setup : ScanSetup := {
      table := { headerOrder := [.exercise, .status, .sleep, .getup, .remark] }
      fallbackYear := 2025, file := "log.txt" }
    let scanned := setup.scan ["01_15", "Sleep:0", "0700wake", "Getup:0650", "Sleep:x", "0900 read",
      "Status:1", "Remark: a", "Status:0", "Remark:", "Remark: b"]
    scanned.1.map (fun day => (day.log.flags, day.log.getup, day.log.remark)) =
        [({ status := some false, sleep := some true },
          some { hour := 6, minute := 50 }, some "a\nb")] ∧
      (withCode .missingHeader scanned.2).map (fun d => (d.line, d.message)) =
        [(1, "2025-01-15 has no 'exercise' header")] := by
  decide +kernel

end Daybook
