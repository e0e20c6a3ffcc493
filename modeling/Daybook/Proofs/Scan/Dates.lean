/-
  Daybook/Proofs/Scan/Dates.lean
  ==============================
  **The days of a scan are its accepted date lines.**  A date line is accepted
  when its year, month and day make a date that no earlier accepted line has
  (`mem_openings_iff`); every other date line is reported once, and so is an
  accepted one whose year had to be assumed (`scan_dates`).
-/
import Daybook.Proofs.Line.Kinds
import Daybook.Proofs.Scan.Findings
import Mathlib.Data.List.Basic

namespace Daybook

/-! ### The order of places -/

theorem pairwise_placesFrom (before log : List LogLine) :
    (placesFrom before log).Pairwise fun p q => p.before ++ [p.line] <+: q.before := by
  induction log generalizing before with
  | nil => exact .nil
  | cons l rest ih =>
    refine List.pairwise_cons.mpr ⟨fun q hq => ?_, ih _⟩
    rcases mem_placesFrom.mp hq with ⟨hcut, hle⟩
    have hfirst : before ++ [l] <+: before ++ [l] ++ rest := List.prefix_append _ _
    have hlater : q.before <+: before ++ [l] ++ rest := ⟨q.line :: q.after, hcut⟩
    exact List.prefix_of_prefix_length_le hfirst hlater hle

theorem getElem?_logLines (table : RuleTable) (n i : Nat) (lines : List String) :
    (logLines table n lines)[i]? = lines[i]?.map (LogLine.ofRaw table (n + i)) := by
  induction lines generalizing n i with
  | nil => simp [logLines]
  | cons raw rest ih =>
    cases i with
    | zero => simp [logLines]
    | succ i => simp [logLines, ih, Nat.add_comm, Nat.add_left_comm]

/-- The lines of a log have different numbers. -/
theorem eq_of_number_eq {table : RuleTable} {n : Nat} {lines : List String} {l m : LogLine}
    (hl : l ∈ logLines table n lines) (hm : m ∈ logLines table n lines)
    (h : l.number = m.number) : l = m := by
  obtain ⟨i, hi⟩ := List.mem_iff_getElem?.mp hl
  obtain ⟨j, hj⟩ := List.mem_iff_getElem?.mp hm
  rw [getElem?_logLines] at hi hj
  obtain ⟨raw, hraw, rfl⟩ := Option.map_eq_some_iff.mp hi
  obtain ⟨other, hother, rfl⟩ := Option.map_eq_some_iff.mp hj
  obtain rfl : i = j := by simpa using h
  rw [hraw] at hother
  rw [Option.some.inj hother]

theorem number_of_mem_places {table : RuleTable} {n : Nat} {lines : List String} {p : Place}
    (hp : p ∈ places (logLines table n lines)) : p.line.number = n + p.before.length := by
  have hline : (logLines table n lines)[p.before.length]? = some p.line := by
    simp [← mem_places.mp hp]
  rw [getElem?_logLines] at hline
  rcases Option.map_eq_some_iff.mp hline with ⟨raw, -, hraw⟩
  simp [← hraw]

theorem prefix_of_number_lt {table : RuleTable} {n : Nat} {lines : List String} {p q : Place}
    (hp : p ∈ places (logLines table n lines)) (hq : q ∈ places (logLines table n lines))
    (h : p.line.number < q.line.number) : p.before ++ [p.line] <+: q.before := by
  have hpcut : p.before ++ [p.line] <+: logLines table n lines :=
    ⟨p.after, by simpa using mem_places.mp hp⟩
  have hqcut : q.before <+: logLines table n lines := ⟨q.line :: q.after, mem_places.mp hq⟩
  have hlength : p.before.length < q.before.length := by
    rw [number_of_mem_places hp, number_of_mem_places hq] at h
    omega
  refine List.prefix_of_prefix_length_le hpcut hqcut ?_
  rw [List.length_append, List.length_singleton]
  omega

theorem number_lt_of_stands_before {table : RuleTable} {n : Nat} {lines : List String} {p q : Place}
    (hp : p ∈ places (logLines table n lines)) (hq : q ∈ places (logLines table n lines))
    (h : p.before ++ [p.line] <+: q.before) : p.line.number < q.line.number := by
  have hlength := h.length_le
  rw [number_of_mem_places hp, number_of_mem_places hq]
  simp at hlength
  omega

/-! ### Which date lines are accepted -/

theorem mem_namedDates_of_prefix {fallback : Int} {p : Place} {lines : List LogLine} {date : Date}
    (h : p.before ++ [p.line] <+: lines) (hdate : p.date? fallback = some date) :
    date ∈ namedDates fallback lines := by
  obtain ⟨rest, hrest⟩ := h
  refine List.mem_filterMap.mpr ⟨⟨p.before, p.line, rest⟩, mem_places.mpr ?_, hdate⟩
  simpa using hrest

theorem exists_first_of_mem_namedDates {fallback : Int} {lines : List LogLine} {date : Date}
    (h : date ∈ namedDates fallback lines) :
    ∃ p ∈ places lines, p.date? fallback = some date ∧ date ∉ namedDates fallback p.before := by
  induction lines using List.reverseRecOn with
  | nil => simp [namedDates, places, placesFrom] at h
  | append_singleton earlier l ih =>
    by_cases hearlier : date ∈ namedDates fallback earlier
    · obtain ⟨p, hp, hdate, hfirst⟩ := ih hearlier
      refine ⟨{ p with after := p.after ++ [l] }, mem_places.mpr ?_, hdate, hfirst⟩
      simp [← mem_places.mp hp]
    · rw [namedDates_append_singleton, List.mem_append, Option.mem_toList] at h
      exact ⟨⟨earlier, l, []⟩, mem_places.mpr rfl, h.resolve_left hearlier, hearlier⟩

theorem mem_namedDates_before_iff {setup : ScanSetup} {lines : List String} {p : Place}
    (hp : p ∈ places (logLines setup.table 1 lines)) {date : Date} :
    date ∈ namedDates setup.fallbackYear p.before ↔
      ∃ o ∈ setup.openings lines, o.place.line.number < p.line.number ∧ o.date = date := by
  constructor
  · intro h
    obtain ⟨q, hq, hdate, hfirst⟩ := exists_first_of_mem_namedDates h
    -- a place among the lines before `p` is a place of the log with more lines after it
    have hcut := mem_places.mp hq
    let place : Place := { q with after := q.after ++ p.line :: p.after }
    have hplace : place ∈ places (logLines setup.table 1 lines) := by
      refine mem_places.mpr ?_
      rw [← mem_places.mp hp, ← hcut]
      simp [place]
    refine ⟨⟨place, date⟩, Opening.mem_openings.mpr ⟨hplace, hdate, hfirst⟩, ?_, rfl⟩
    refine number_lt_of_stands_before hplace hp ⟨q.after, ?_⟩
    simpa [place] using hcut
  · rintro ⟨o, ho, hlt, rfl⟩
    rcases Opening.mem_openings.mp ho with ⟨hplace, hdate, -⟩
    exact mem_namedDates_of_prefix (prefix_of_number_lt hplace hp hlt) hdate

/-- **A date line is accepted when it names a date that no earlier accepted line has.** -/
theorem mem_openings_iff {setup : ScanSetup} {lines : List String} {o : Opening} :
    o ∈ setup.openings lines ↔
      o.place ∈ places (logLines setup.table 1 lines) ∧
        o.place.date? setup.fallbackYear = some o.date ∧
        ∀ e ∈ setup.openings lines, e.place.line.number < o.place.line.number →
          e.date ≠ o.date := by
  rw [Opening.mem_openings]
  apply and_congr_right
  intro hp
  apply and_congr_right
  intro _
  rw [mem_namedDates_before_iff hp]
  constructor
  · intro h e he hlt heq
    exact h ⟨e, he, hlt, heq⟩
  · rintro h ⟨e, he, hlt, heq⟩
    exact h e he hlt heq

/-- A date line that is rejected still gives the year of the next one. -/
example :
    let setup : ScanSetup := { table := {}, fallbackYear := 2025, file := "log.txt" }
    (setup.openings ["01_15", "2024_02_30", "01_15", "01_15"]).map (fun o => o.date) =
      [{ year := 2025, month := 1, day := 15 }, { year := 2024, month := 1, day := 15 }] := by
  decide +kernel

theorem pairwise_openings (setup : ScanSetup) (lines : List String) :
    (setup.openings lines).Pairwise fun a b =>
      a.place.line.number < b.place.line.number ∧ a.date ≠ b.date := by
  refine List.pairwise_filterMap.mpr ((pairwise_placesFrom [] _).imp_of_mem ?_)
  intro p q hp hq hprefix a ha b hb
  rcases Place.opening?_eq_some.mp ha with ⟨rfl, hdate, -⟩
  rcases Place.opening?_eq_some.mp hb with ⟨rfl, -, hnew⟩
  refine ⟨number_lt_of_stands_before hp hq hprefix, fun heq => hnew ?_⟩
  exact heq ▸ mem_namedDates_of_prefix hprefix hdate

theorem nodup_dates_scan (setup : ScanSetup) (lines : List String) :
    ((setup.scan lines).1.map fun day => day.log.date).Nodup := by
  rw [days_scan, List.map_map, List.Nodup, List.pairwise_map]
  refine (pairwise_openings setup lines).imp ?_
  rintro a b ⟨-, hdate⟩
  simpa using hdate

/-! ### The findings of date lines -/

namespace Place

theorem isDate_of_date? {fallback : Int} {p : Place} {date : Date}
    (h : p.date? fallback = some date) : p.line.isDate = true := by
  cases hkind : p.line.kind <;> simp_all [date?, LogLine.isDate]

theorem linesWith_dateFindings (setup : ScanSetup) (p : Place) (code : Code) :
    linesWith code (p.dateFindings setup) =
      match p.date? setup.fallbackYear with
      | none => if p.line.isDate && code = .invalidDate then [p.line.number] else []
      | some date =>
        if date ∈ namedDates setup.fallbackYear p.before then
          if code = .duplicateDate then [p.line.number] else []
        else if p.knownYear?.isNone && code = .missingYear then [p.line.number] else [] := by
  cases hdate : p.date? setup.fallbackYear with
  | none =>
    cases hl : p.line.isDate with
    | false =>
      have hnil : p.dateFindings setup = [] :=
        List.append_eq_nil_iff.mp (findings_of_not_date setup hl) |>.1
      simp [hnil]
    | true =>
      obtain ⟨year, month, day, hkind⟩ := LogLine.exists_of_isDate hl
      simp [dateFindings, hkind, hdate, linesWith_singleton, eq_comm]
  | some date =>
    obtain ⟨year, month, day, hkind⟩ := LogLine.exists_of_isDate (isDate_of_date? hdate)
    by_cases hnamed : date ∈ namedDates setup.fallbackYear p.before
    · simp [dateFindings, hkind, hdate, hnamed, linesWith_singleton, eq_comm]
    · cases hknown : p.knownYear? <;>
        simp [dateFindings, hkind, hdate, hnamed, hknown, linesWith_singleton, eq_comm]

end Place

theorem linesWith_invalidDate_scan (setup : ScanSetup) (lines : List String) :
    linesWith .invalidDate (setup.scan lines).2 =
      ((places (logLines setup.table 1 lines)).filter fun p =>
        p.line.isDate && (p.date? setup.fallbackYear).isNone).map (·.line.number) := by
  rw [linesWith_scan_of_dateCode setup lines (by decide), ← flatMap_ite_singleton]
  apply List.flatMap_congr
  intro p _
  rw [Place.linesWith_dateFindings]
  cases p.date? setup.fallbackYear with
  | none => simp
  | some date => simp

theorem linesWith_duplicateDate_scan (setup : ScanSetup) (lines : List String) :
    linesWith .duplicateDate (setup.scan lines).2 =
      ((places (logLines setup.table 1 lines)).filter fun p =>
        ∃ o ∈ setup.openings lines, o.place.line.number < p.line.number ∧
          p.date? setup.fallbackYear = some o.date).map (·.line.number) := by
  rw [linesWith_scan_of_dateCode setup lines (by decide), ← flatMap_ite_singleton]
  apply List.flatMap_congr
  intro p hp
  rw [Place.linesWith_dateFindings]
  cases p.date? setup.fallbackYear with
  | none => simp
  | some date => simp [mem_namedDates_before_iff hp, eq_comm (a := date)]

theorem linesWith_missingYear_scan (setup : ScanSetup) (lines : List String) :
    linesWith .missingYear (setup.scan lines).2 =
      ((setup.openings lines).filter fun o => o.place.knownYear?.isNone).map
        (·.place.line.number) := by
  have hopened (p : Place) : linesWith .missingYear (p.dateFindings setup) =
      (p.opening? setup.fallbackYear).toList.flatMap fun o =>
        if o.place.knownYear?.isNone then [o.place.line.number] else [] := by
    rw [Place.linesWith_dateFindings, Place.opening?]
    cases p.date? setup.fallbackYear with
    | none => simp
    | some date => by_cases h : date ∈ namedDates setup.fallbackYear p.before <;> simp [h]
  rw [linesWith_scan_of_dateCode setup lines (by decide), ← flatMap_ite_singleton]
  simp only [hopened]
  exact flatMap_opening? _ _ _ _

/-! ### The days -/

/-- A line of a log is a date line when its text is written as one. -/
theorem LogLine.IsRead.kind_eq_date_iff {table : RuleTable} {l : LogLine} (h : l.IsRead table)
    {year : Option Int} {month day : Nat} :
    l.kind = .date year month day ↔ IsDateLine l.text.toList (.date year month day) := by
  have hkind : l.kind = classify table l.text := h
  rw [hkind]
  exact classify_eq_date_iff

/-- **The days of a scan are its accepted date lines.**  Each accepted date line gives a day with
    its number and its date, in the order of the log and no date twice, where a date line is
    accepted when it names a date that no earlier accepted line has.  A date line that names no date
    is reported once, and so is one that names an accepted date again; an accepted one is reported
    when no year has been given up to it.  No other line is reported so, and a line is a date line
    when its text, without the blanks around it, is written as one. -/
theorem scan_dates (setup : ScanSetup) (lines : List String) :
    let fallback := setup.fallbackYear
    let log := logLines setup.table 1 lines
    let found := (setup.scan lines).2
    (setup.scan lines).1.map (fun day => (day.log.line, day.log.date)) =
        (setup.openings lines).map (fun o => (o.place.line.number, o.date)) ∧
      ((setup.scan lines).1.Pairwise fun day later =>
        day.log.line < later.log.line ∧ day.log.date ≠ later.log.date) ∧
      (∀ o, o ∈ setup.openings lines ↔
        o.place ∈ places log ∧ o.place.date? fallback = some o.date ∧
          ∀ e ∈ setup.openings lines, e.place.line.number < o.place.line.number →
            e.date ≠ o.date) ∧
      linesWith .invalidDate found =
        ((places log).filter fun p => p.line.isDate && (p.date? fallback).isNone).map
          (·.line.number) ∧
      linesWith .duplicateDate found =
        ((places log).filter fun p => ∃ o ∈ setup.openings lines,
          o.place.line.number < p.line.number ∧ p.date? fallback = some o.date).map
          (·.line.number) ∧
      linesWith .missingYear found =
        ((setup.openings lines).filter fun o => o.place.knownYear?.isNone).map
          (·.place.line.number) ∧
      ∀ l ∈ log, ∀ year month day, l.kind = .date year month day ↔
        IsDateLine l.text.toList (.date year month day) := by
  intro fallback log found
  refine ⟨?_, ?_, ?_, ?_, ?_, ?_, ?_⟩
  · simp [days_scan]
  · rw [days_scan, List.pairwise_map]
    simpa using pairwise_openings setup lines
  · intro o
    exact mem_openings_iff
  · exact linesWith_invalidDate_scan setup lines
  · exact linesWith_duplicateDate_scan setup lines
  · exact linesWith_missingYear_scan setup lines
  · intro l hl year month day
    exact (isRead_of_mem_logLines hl).kind_eq_date_iff

end Daybook
