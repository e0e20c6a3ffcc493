/-
  Daybook/Proofs/Scan/Run.lean
  ============================
  **A scan finds what the log says.**  Between two lines a scanner remembers the
  last year that was given and the dates that have been named
  (`Scanner.Remembers`); each line keeps this up (`Remembers.of_not_date`,
  `beginDay_spec`).  What is still to come then splits into the rest of the open day
  and the places of the lines to come (`complete_eq`), and a whole scan is the
  openings of the log, each read for itself (`scan_eq`).
-/
import Daybook.Proofs.Scan.DayFindings
import Mathlib.Data.List.Forall2

namespace Daybook

open Daybook.Text

/-! ### What a stretch of a log gives by itself -/

/-- Reads the rest of a day and closes it. -/
def Block.readOut (b : Block) (setup : ScanSetup) (lines : List LogLine) :
    ScannedDay × List Diagnostic :=
  let (last, findings) := b.readAll setup lines
  let (day, missing) := last.close setup.table setup.file
  (day, findings ++ missing)

/-- The block of a day before any of its lines. -/
def Opening.start (o : Opening) : Block :=
  { date := o.date, line := o.place.line.number, dateText := o.place.line.text }

/-- The day that a date line opens, and what its lines and its end raise. -/
def Opening.read (o : Opening) (setup : ScanSetup) : ScannedDay × List Diagnostic :=
  o.start.readOut setup o.place.block

namespace Place

/-- What a date line raises: no such date, a date named before, or a year that is only assumed. -/
def dateFindings (setup : ScanSetup) (p : Place) : List Diagnostic :=
  let finding (code : Code) (message : String) :=
    setup.finding code p.line.number p.line.text none message
  let year := p.year setup.fallbackYear
  match p.line.kind with
  | .date _ _ _ =>
    match p.date? setup.fallbackYear with
    | none =>
      [finding .invalidDate
        s!"'{p.line.text}' is not a calendar date in {year}; skipping the day"]
    | some date =>
      if date ∈ namedDates setup.fallbackYear p.before then
        [finding .duplicateDate
          s!"{date.text} appears more than once; skipping the repeated day"]
      else if p.knownYear?.isSome then []
      else
        [finding .missingYear
          s!"date '{p.line.text}' has no year and no earlier full date; assuming {year}"]
  | _ => []

/-- What a date line and the day that it opens raise. -/
def findings (setup : ScanSetup) (p : Place) : List Diagnostic :=
  p.dateFindings setup ++
    match p.opening? setup.fallbackYear with
    | none => []
    | some o => (o.read setup).2

/-- Where a scanner stands after a date line: in the day that the line opens, if any. -/
def begun (fallback : Int) (p : Place) : Phase :=
  match p.opening? fallback with
  | none => .skipping
  | some o => .inDay o.start

end Place

/-- What lines before the first date line raise. -/
def strayFindings (setup : ScanSetup) (lines : List LogLine) : List Diagnostic :=
  lines.flatMap fun l =>
    if l.kind = .blank then []
    else [setup.finding .noDateAtStart l.number l.text none "content before the first date line"]

/-- What the lines up to the next date line add to a scan: the rest of the open day, if there is
    one. -/
def Phase.readOut (setup : ScanSetup) (lines : List LogLine) :
    Phase → List ScannedDay × List Diagnostic
  | .beforeFirstDate => ([], strayFindings setup lines)
  | .inDay block => ([(block.readOut setup lines).1], (block.readOut setup lines).2)
  | .skipping => ([], [])

namespace Place

theorem opening?_of_not_date (fallback : Int) {p : Place} (h : p.line.isDate = false) :
    p.opening? fallback = none := by
  have hdate : p.date? fallback = none := by
    cases hkind : p.line.kind <;> simp_all [LogLine.isDate, date?]
  simp [opening?, hdate]

theorem findings_of_not_date (setup : ScanSetup) {p : Place} (h : p.line.isDate = false) :
    p.findings setup = [] := by
  have hnone := opening?_of_not_date setup.fallbackYear h
  cases hkind : p.line.kind <;> simp_all [LogLine.isDate, findings, dateFindings]

end Place

theorem LogLine.exists_of_isDate {l : LogLine} (h : l.isDate = true) :
    ∃ year month day, l.kind = .date year month day := by
  cases hkind : l.kind <;> simp_all [LogLine.isDate]

theorem openingsFrom_cons (fallback : Int) (before : List LogLine) (l : LogLine)
    (rest : List LogLine) :
    openingsFrom fallback before (l :: rest) =
      (Place.opening? fallback ⟨before, l, rest⟩).toList ++
        openingsFrom fallback (before ++ [l]) rest := by
  cases h : Place.opening? fallback ⟨before, l, rest⟩ <;> simp [openingsFrom, placesFrom, h]

/-- The day that a place opens, if any, adds what is read of it. -/
theorem Phase.readOut_begun (setup : ScanSetup) (p : Place) :
    (p.begun setup.fallbackYear).readOut setup p.block =
      ((p.opening? setup.fallbackYear).toList.map fun o => (o.read setup).1,
        match p.opening? setup.fallbackYear with
        | none => []
        | some o => (o.read setup).2) := by
  unfold Place.begun
  cases ho : p.opening? setup.fallbackYear with
  | none => rfl
  | some o =>
    rcases Place.opening?_eq_some.mp ho with ⟨hplace, -, -⟩
    simp [Phase.readOut, Opening.read, hplace]

namespace Scanner

/-! ### What a scanner remembers -/

/-- Whether a scanner has kept what the lines read so far tell about years and dates. -/
structure Remembers (s : Scanner) (fallback : Int) (done : List LogLine) : Prop where
  year : s.year = lastYear? done
  accepted : ∀ date, date ∈ s.accepted ↔ date ∈ namedDates fallback done

theorem remembers_nil (fallback : Int) : ({} : Scanner).Remembers fallback [] where
  year := rfl
  accepted := by simp [namedDates, places, placesFrom]

/-- A line that is no date line tells nothing about years and dates. -/
theorem Remembers.of_not_date {s s' : Scanner} {fallback : Int} {done : List LogLine}
    {l : LogLine} (h : s.Remembers fallback done) (hl : l.isDate = false)
    (hyear : s'.year = s.year) (haccepted : s'.accepted = s.accepted) :
    s'.Remembers fallback (done ++ [l]) := by
  have hfull : l.fullYear? = none := by
    cases hkind : l.kind <;> simp_all [LogLine.isDate, LogLine.fullYear?]
  have hdate : Place.date? fallback ⟨done, l, []⟩ = none := by
    cases hkind : l.kind <;> simp_all [LogLine.isDate, Place.date?]
  constructor
  · rw [hyear, h.year, lastYear?_append_singleton, hfull, Option.none_or]
  · intro date
    rw [haccepted, h.accepted, namedDates_append_singleton, hdate]
    simp

/-! ### Date lines -/

theorem readOut_nil (s : Scanner) (setup : ScanSetup) :
    s.phase.readOut setup [] = ((s.finish setup).1.toList, (s.finish setup).2) := by
  unfold finish
  cases s.phase <;> simp [Phase.readOut, Block.readOut, Block.readAll, strayFindings]

/-- A date line raises what its place says, is remembered, and opens a day or none. -/
theorem beginDay_spec {s : Scanner} {setup : ScanSetup} {done : List LogLine} {p : Place}
    {year : Option Int} {month day : Nat} (h : s.Remembers setup.fallbackYear done)
    (hbefore : p.before = done) (hkind : p.line.kind = .date year month day) :
    let next := s.beginDay setup p.line.number p.line.text year month day
    next.2 = p.dateFindings setup ∧
      next.1.Remembers setup.fallbackYear (done ++ [p.line]) ∧
      next.1.phase = p.begun setup.fallbackYear := by
  subst hbefore
  have hfull : p.line.fullYear? = year := by simp [LogLine.fullYear?, hkind]
  have hknown : year.or s.year = p.knownYear? := by simp [Place.knownYear?, hfull, h.year]
  have hyear : lastYear? (p.before ++ [p.line]) = p.knownYear? := by
    rw [lastYear?_append_singleton]
    rfl
  have hdate : Date.ofYMD? (p.knownYear?.getD setup.fallbackYear) month day =
      p.date? setup.fallbackYear := by
    simp [Place.date?, hkind, Place.year]
  have hnamed : namedDates setup.fallbackYear (p.before ++ [p.line]) =
      namedDates setup.fallbackYear p.before ++ (p.date? setup.fallbackYear).toList :=
    namedDates_append_singleton _ _ _
  simp only [beginDay, hknown, hdate]
  cases hp : p.date? setup.fallbackYear with
  | none =>
    refine ⟨by simp [Place.dateFindings, hkind, hp, Place.year], ⟨hyear.symm, ?_⟩, ?_⟩
    · intro date
      simp [hnamed, hp, h.accepted]
    · simp [Place.begun, Place.opening?, hp]
  | some date =>
    have hmem := h.accepted date
    by_cases hseen : date ∈ namedDates setup.fallbackYear p.before
    · simp only [hmem.mpr hseen, if_true]
      refine ⟨by simp [Place.dateFindings, hkind, hp, hseen], ⟨hyear.symm, ?_⟩, ?_⟩
      · intro other
        simp only [hnamed, hp, h.accepted, Option.toList_some, List.mem_append,
          List.mem_singleton]
        constructor
        · exact .inl
        · rintro (hother | rfl)
          · exact hother
          · exact hseen
      · simp [Place.begun, Place.opening?, hp, hseen]
    · have hnew : date ∉ s.accepted := fun hin => hseen (hmem.mp hin)
      simp only [hnew, if_false]
      refine ⟨by simp [Place.dateFindings, hkind, hp, hseen, Place.year], ⟨hyear.symm, ?_⟩, ?_⟩
      · intro other
        simp [hnamed, hp, h.accepted, or_comm]
      · simp [Place.begun, Place.opening?, hp, hseen, Opening.start]

/-! ### Other lines -/

/-- A line that is no date line ends no day, and what it raises comes before what the following
    lines add. -/
theorem step_of_not_date {s : Scanner} {setup : ScanSetup} {n : Nat} {raw : String}
    (hl : (LogLine.ofRaw setup.table n raw).isDate = false) (rest : List LogLine) :
    let r := s.step setup n raw
    r.day = none ∧ r.scanner.year = s.year ∧ r.scanner.accepted = s.accepted ∧
      s.phase.readOut setup (LogLine.ofRaw setup.table n raw :: rest) =
        ((r.scanner.phase.readOut setup rest).1,
          r.findings ++ (r.scanner.phase.readOut setup rest).2) := by
  unfold step
  cases hkind : classify setup.table (trimmed raw) with
  | blank =>
    cases hphase : s.phase <;>
      simp [Phase.readOut, Block.readOut, Block.readAll, Block.readLine, strayFindings,
        hkind, hphase]
  | date year month day => simp [LogLine.isDate, hkind] at hl
  | _ =>
    cases hphase : s.phase <;>
      simp [Phase.readOut, Block.readOut, Block.readAll, strayFindings, hkind, hphase]

theorem step_of_date (s : Scanner) {setup : ScanSetup} {n : Nat} {raw : String}
    {year : Option Int} {month day : Nat}
    (hkind : classify setup.table (trimmed raw) = .date year month day) :
    s.step setup n raw =
      let begun := s.beginDay setup n (trimmed raw) year month day
      { scanner := begun.1, day := (s.finish setup).1,
        findings := (s.finish setup).2 ++ begun.2 } := by
  simp [step, hkind]

/-! ### Whole scans -/

/-- Reads lines numbered from `n` on and ends the scan. -/
def complete (s : Scanner) (setup : ScanSetup) (n : Nat) (lines : List String) :
    List ScannedDay × List Diagnostic :=
  let (last, days, findings) := s.steps setup n lines
  let (ended, missing) := last.finish setup
  (days ++ ended.toList, findings ++ missing)

theorem complete_nil (s : Scanner) (setup : ScanSetup) (n : Nat) :
    s.complete setup n [] = ((s.finish setup).1.toList, (s.finish setup).2) := by
  simp [complete, steps]

theorem complete_cons (s : Scanner) (setup : ScanSetup) (n : Nat) (raw : String)
    (rest : List String) :
    s.complete setup n (raw :: rest) =
      let r := s.step setup n raw
      let c := r.scanner.complete setup (n + 1) rest
      (r.day.toList ++ c.1, r.findings ++ c.2) := by
  simp [complete, steps]

/-- **What is still to come.**  From any point on, a scan gives the rest of the open day, then the
    days that the lines to come open, and raises what they say. -/
theorem complete_eq {s : Scanner} {setup : ScanSetup} {done : List LogLine}
    (h : s.Remembers setup.fallbackYear done) (n : Nat) (lines : List String) :
    let log := logLines setup.table n lines
    let open_ := s.phase.readOut setup (log.takeWhile fun l => !l.isDate)
    s.complete setup n lines =
      (open_.1 ++ (openingsFrom setup.fallbackYear done log).map fun o => (o.read setup).1,
        open_.2 ++ (placesFrom done log).flatMap (Place.findings setup)) := by
  induction lines generalizing s done n with
  | nil => simp [complete_nil, logLines, readOut_nil, openingsFrom, placesFrom]
  | cons raw rest ih =>
    have hrest := fun {s : Scanner} {done : List LogLine}
      (h : s.Remembers setup.fallbackYear done) => ih h (n + 1)
    simp only [logLines]
    generalize hline : LogLine.ofRaw setup.table n raw = l
    generalize hlog : logLines setup.table (n + 1) rest = log at hrest ⊢
    simp only [complete_cons, openingsFrom_cons, placesFrom, List.flatMap_cons]
    cases hl : l.isDate with
    | false =>
      obtain ⟨hday, hyear, haccepted, hphase⟩ :=
        step_of_not_date (s := s) (hline ▸ hl) (log.takeWhile fun l => !l.isDate)
      rw [hline] at hphase
      have hremembers := h.of_not_date hl hyear haccepted
      have hopening : Place.opening? setup.fallbackYear ⟨done, l, log⟩ = none :=
        Place.opening?_of_not_date _ hl
      have hfindings : Place.findings setup ⟨done, l, log⟩ = [] :=
        Place.findings_of_not_date setup hl
      simp [hrest hremembers, hl, hday, hphase, hopening, hfindings]
    | true =>
      obtain ⟨year, month, day, hkind⟩ := LogLine.exists_of_isDate hl
      have hraw : classify setup.table (trimmed raw) = .date year month day := by
        rw [← hkind, ← hline, LogLine.kind_ofRaw]
      -- the date line stands between what has been read and the rest of the log
      obtain ⟨hfindings, hremembers, hphase⟩ :=
        beginDay_spec (p := ⟨done, l, log⟩) h rfl hkind
      have htext : l.number = n ∧ l.text = trimmed raw := by simp [← hline]
      simp only [htext] at hfindings hremembers hphase
      have hopened := Phase.readOut_begun setup ⟨done, l, log⟩
      simp only [Place.block] at hopened
      simp [step_of_date s hraw, hrest hremembers, hfindings, hphase, hopened, hl, readOut_nil,
        Place.findings]

end Scanner

/-- **A scan is the openings of the log, each read for itself**, and raises what stands before the
    first date line and then what each place says. -/
theorem scan_eq (setup : ScanSetup) (lines : List String) :
    let log := logLines setup.table 1 lines
    setup.scan lines =
      ((setup.openings lines).map fun o => (o.read setup).1,
        strayFindings setup (log.takeWhile fun l => !l.isDate) ++
          (places log).flatMap (Place.findings setup)) := by
  have hscan : setup.scan lines = ({} : Scanner).complete setup 1 lines := rfl
  rw [hscan, Scanner.complete_eq (Scanner.remembers_nil setup.fallbackYear)]
  rfl

/-! ### The days of a scan -/

theorem days_scan (setup : ScanSetup) (lines : List String) :
    (setup.scan lines).1 = (setup.openings lines).map fun o => (o.read setup).1 := by
  rw [scan_eq]

/-- What relates each opening to the day that is read of it relates the openings to the days. -/
theorem forall₂_scan {setup : ScanSetup} {lines : List String} {R : Opening → ScannedDay → Prop}
    (h : ∀ o ∈ setup.openings lines, R o (o.read setup).1) :
    List.Forall₂ R (setup.openings lines) (setup.scan lines).1 := by
  rw [days_scan, List.forall₂_map_right_iff]
  exact List.forall₂_same.mpr h

theorem Place.isRead_of_mem_block {table : RuleTable} {lines : List String} {p : Place}
    (hp : p ∈ places (logLines table 1 lines)) {l : LogLine} (hl : l ∈ p.block) :
    l.IsRead table := by
  have hafter : l ∈ p.after := (List.takeWhile_sublist _).mem hl
  have hmem : l ∈ logLines table 1 lines := by
    rw [← mem_places.mp hp]
    simp [hafter]
  exact isRead_of_mem_logLines hmem

namespace Opening

theorem mem_openings {setup : ScanSetup} {lines : List String} {o : Opening} :
    o ∈ setup.openings lines ↔
      o.place ∈ places (logLines setup.table 1 lines) ∧
        o.place.date? setup.fallbackYear = some o.date ∧
        o.date ∉ namedDates setup.fallbackYear o.place.before := by
  simp only [ScanSetup.openings, openingsFrom, List.mem_filterMap, Place.opening?_eq_some]
  constructor
  · rintro ⟨p, hp, rfl, hdate, hnew⟩
    exact ⟨hp, hdate, hnew⟩
  · rintro ⟨hp, hdate, hnew⟩
    exact ⟨o.place, hp, rfl, hdate, hnew⟩

@[simp] theorem date_read (o : Opening) (setup : ScanSetup) :
    (o.read setup).1.log.date = o.date :=
  congrArg Prod.fst (o.start.title_readAll setup o.place.block)

@[simp] theorem line_read (o : Opening) (setup : ScanSetup) :
    (o.read setup).1.log.line = o.place.line.number :=
  congrArg (fun title => title.2.1) (o.start.title_readAll setup o.place.block)

theorem trimmed_description {setup : ScanSetup} {lines : List String} {o : Opening}
    (ho : o ∈ setup.openings lines) {line : ActivityLine}
    (hline : line ∈ activityLines o.place.block) :
    trimmed line.written.description = line.written.description := by
  rcases List.mem_filterMap.mp hline with ⟨l, hl, hsaid⟩
  rcases Option.map_eq_some_iff.mp hsaid with ⟨written, hwritten, rfl⟩
  have hread : l.IsRead setup.table := Place.isRead_of_mem_block (mem_openings.mp ho).1 hl
  exact hread.trimmed_description hwritten

/-- **The course of an opened day**, as its activity lines and the header lines before the first of
    them say. -/
theorem course_read {setup : ScanSetup} {lines : List String} {o : Opening}
    (ho : o ∈ setup.openings lines) :
    (o.read setup).1.log.activities =
        setup.table.recordFrom (firstStart setup.table setup.dayStart o.place.block)
          (setup.table.recordedLines (activityLines o.place.block)) ∧
      (o.read setup).1.wake = setup.table.openingWake? (activityLines o.place.block) := by
  have hread : ∀ l ∈ o.place.block, l.IsRead setup.table :=
    fun l hl => Place.isRead_of_mem_block (mem_openings.mp ho).1 hl
  have hawaits : o.start.awaitsWake = true := rfl
  obtain ⟨hactivities, hwake⟩ := Block.readAll_of_awaits setup o.place.block hawaits hread
  have hgetup : o.start.getup = none := rfl
  rw [hgetup, Option.or_none] at hactivities
  exact ⟨hactivities, hwake⟩

/-- An activity of an opened day says what a line of its block says. -/
theorem exists_line_of_mem_activities {setup : ScanSetup} {lines : List String} {o : Opening}
    (ho : o ∈ setup.openings lines) {a : Activity} (ha : a ∈ (o.read setup).1.log.activities) :
    ∃ l ∈ o.place.after, ∃ written, l.kind = .activity written ∧ a.line = l.number ∧
      a.description = written.description := by
  rw [(course_read ho).1] at ha
  obtain ⟨begun, line, hline, rfl⟩ := RuleTable.exists_of_mem_recordFrom ha
  have hsaid := (setup.table.recordedLines_sublist _).mem hline
  obtain ⟨l, hl, hactivity⟩ := List.mem_filterMap.mp hsaid
  obtain ⟨written, hwritten, rfl⟩ := Option.map_eq_some_iff.mp hactivity
  exact
    ⟨l, (List.takeWhile_sublist _).mem hl, written, LogLine.kind_of_activity? hwritten, rfl, rfl⟩

end Opening

end Daybook
