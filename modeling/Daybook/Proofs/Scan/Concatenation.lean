/-
  Daybook/Proofs/Scan/Concatenation.lean
  ======================================
  **Logs can be put together at full dates.**  A date line of the full form starts
  afresh: it ends the open day as the end of a log does, and gives the year of
  what follows.  From there on a scan goes as a new one would (`Extends`), as long
  as no date comes back that had its day before, so the scan of two logs put
  together is the scan of the first and then that of the second (`scan_append`).
-/
import Daybook.Proofs.Scan.Dates
import Daybook.Proofs.Scan.Steps

namespace Daybook

open Daybook.Text

namespace Scanner

/-! ### A scan that goes as another -/

/-- Whether a scan stands where another does, but has accepted further dates as well. -/
structure Extends (s t : Scanner) (further : List Date) : Prop where
  phase : s.phase = t.phase
  year : s.year = t.year
  accepted : ∀ date, date ∈ s.accepted ↔ date ∈ t.accepted ∨ date ∈ further

variable {s t : Scanner} {further : List Date}

theorem Extends.finish_eq (h : s.Extends t further) (setup : ScanSetup) :
    s.finish setup = t.finish setup := by
  unfold finish
  rw [h.phase]

/-- A date line begins the same day in both scans, unless its date is one of the further ones. -/
theorem beginDay_extends {setup : ScanSetup} {n : Nat} {text : String} {year : Option Int}
    {month day : Nat} (hyear : year.or s.year = year.or t.year)
    (haccepted : ∀ date, date ∈ s.accepted ↔ date ∈ t.accepted ∨ date ∈ further)
    (hnew : ∀ block, (t.beginDay setup n text year month day).1.phase = .inDay block →
      block.date ∉ further) :
    (s.beginDay setup n text year month day).2 = (t.beginDay setup n text year month day).2 ∧
      (s.beginDay setup n text year month day).1.Extends
        (t.beginDay setup n text year month day).1 further := by
  simp only [beginDay, hyear] at hnew ⊢
  cases hdate : Date.ofYMD? ((year.or t.year).getD setup.fallbackYear) month day with
  | none => exact ⟨rfl, rfl, rfl, haccepted⟩
  | some date =>
    simp only [hdate] at hnew
    dsimp only
    by_cases ht : date ∈ t.accepted
    · have hs : date ∈ s.accepted := (haccepted date).mpr (.inl ht)
      rw [if_pos ht, if_pos hs]
      exact ⟨rfl, rfl, rfl, haccepted⟩
    · simp only [ht, if_false] at hnew
      have hdate : date ∉ further := hnew _ rfl
      have hs : date ∉ s.accepted := by
        intro hmem
        rcases (haccepted date).mp hmem with hmem | hmem
        · exact ht hmem
        · exact hdate hmem
      rw [if_neg ht, if_neg hs]
      refine ⟨rfl, rfl, rfl, ?_⟩
      intro other
      rw [List.mem_cons, List.mem_cons, haccepted, or_assoc]

/-- **A line does the same in both scans**, unless it begins a day of a further date. -/
theorem Extends.step (h : s.Extends t further) {setup : ScanSetup} {n : Nat} {raw : String}
    (hnew : ∀ block, (t.step setup n raw).scanner.phase = .inDay block → block.date ∉ further) :
    (s.step setup n raw).day = (t.step setup n raw).day ∧
      (s.step setup n raw).findings = (t.step setup n raw).findings ∧
      (s.step setup n raw).scanner.Extends (t.step setup n raw).scanner further := by
  cases hl : (LogLine.ofRaw setup.table n raw).isDate with
  | true =>
    obtain ⟨year, month, day, hkind⟩ := LogLine.exists_of_isDate hl
    rw [LogLine.kind_ofRaw] at hkind
    rw [step_of_date t hkind] at hnew
    have hyear : year.or s.year = year.or t.year := by rw [h.year]
    obtain ⟨hfindings, hbegun⟩ := beginDay_extends hyear h.accepted hnew
    rw [step_of_date s hkind, step_of_date t hkind]
    dsimp only
    rw [h.finish_eq, hfindings]
    exact ⟨rfl, rfl, hbegun⟩
  | false =>
    cases hphase : t.phase with
    | beforeFirstDate =>
      rw [step_beforeFirstDate (h.phase.trans hphase) hl, step_beforeFirstDate hphase hl]
      exact ⟨rfl, rfl, h⟩
    | skipping =>
      rw [step_skipping (h.phase.trans hphase) hl, step_skipping hphase hl]
      exact ⟨rfl, rfl, h⟩
    | inDay block =>
      rw [step_inDay (h.phase.trans hphase) hl, step_inDay hphase hl]
      exact ⟨rfl, rfl, rfl, h.year, h.accepted⟩

/-- The open day is among the days to come. -/
theorem exists_day_of_inDay {setup : ScanSetup} {done : List LogLine} {block : Block}
    (ht : t.Remembers setup.fallbackYear done) (hphase : t.phase = .inDay block) (n : Nat)
    (lines : List String) :
    ∃ day ∈ (t.complete setup n lines).1, day.log.date = block.date := by
  rw [complete_eq ht, hphase]
  refine ⟨_, List.mem_append_left _ List.mem_cons_self, ?_⟩
  exact congrArg Prod.fst (block.title_readAll setup _)

/-- **From there on both scans go the same way**, if no day to come has a further date. -/
theorem Extends.complete_eq (h : s.Extends t further) {setup : ScanSetup} {done : List LogLine}
    (ht : t.Remembers setup.fallbackYear done) {n : Nat} {lines : List String}
    (hdays : ∀ day ∈ (t.complete setup n lines).1, day.log.date ∉ further) :
    s.complete setup n lines = t.complete setup n lines := by
  -- a day that a line begins is still to come, so its date is none of the further ones, and the
  -- two scans stand alike behind the line as well
  induction lines generalizing s t done n with
  | nil => rw [complete_nil, complete_nil, h.finish_eq]
  | cons raw rest ih =>
    have hrest : ∀ day ∈ ((t.step setup n raw).scanner.complete setup (n + 1) rest).1,
        day.log.date ∉ further := by
      intro day hday
      apply hdays
      rw [complete_cons]
      exact List.mem_append_right _ hday
    have hnew : ∀ block, (t.step setup n raw).scanner.phase = .inDay block →
        block.date ∉ further := by
      intro block hblock
      obtain ⟨day, hday, hdate⟩ := exists_day_of_inDay (ht.step n raw) hblock (n + 1) rest
      rw [← hdate]
      exact hrest day hday
    obtain ⟨hday, hfindings, hextends⟩ := h.step hnew
    rw [complete_cons, complete_cons]
    dsimp only
    rw [hday, hfindings, ih hextends (ht.step n raw) hrest]

/-! ### Starting afresh -/

theorem steps_blank (s : Scanner) {setup : ScanSetup} (n : Nat) {lines : List String}
    (hlines : ∀ raw ∈ lines, classify setup.table (trimmed raw) = .blank) :
    s.steps setup n lines = (s, [], []) := by
  induction lines generalizing n with
  | nil => rfl
  | cons raw rest ih =>
    have hfirst := hlines raw List.mem_cons_self
    have hrest := ih (n + 1) fun raw hraw => hlines raw (List.mem_cons_of_mem _ hraw)
    simp [steps_cons, step_of_blank s n hfirst, hrest]

/-- A scan that comes to a date line of the full form ends the open day and then goes as a new
    one. -/
theorem complete_of_full_date (s : Scanner) {setup : ScanSetup} {n : Nat} {raw : String}
    {year : Int} {month date : Nat} {rest : List String}
    (hkind : classify setup.table (trimmed raw) = .date (some year) month date)
    (hdays : ∀ day ∈ (({} : Scanner).complete setup n (raw :: rest)).1,
      day.log.date ∉ s.accepted) :
    let afresh := ({} : Scanner).complete setup n (raw :: rest)
    s.complete setup n (raw :: rest) =
      ((s.finish setup).1.toList ++ afresh.1, (s.finish setup).2 ++ afresh.2) := by
  intro afresh
  generalize hbegun : ({} : Scanner).beginDay setup n (trimmed raw) (some year) month date = begun
  have hstep : ({} : Scanner).step setup n raw =
      { scanner := begun.1, day := none, findings := begun.2 } := by
    rw [step_of_date _ hkind, hbegun]
    rfl
  have hremembers := (remembers_nil setup.fallbackYear).step n raw
  rw [hstep] at hremembers
  have hrest : ∀ day ∈ (begun.1.complete setup (n + 1) rest).1, day.log.date ∉ s.accepted := by
    intro day hday
    apply hdays
    rw [complete_cons, hstep]
    exact List.mem_append_right _ hday
  have hnew : ∀ block, begun.1.phase = .inDay block → block.date ∉ s.accepted := by
    intro block hblock
    obtain ⟨day, hday, hdate⟩ := exists_day_of_inDay hremembers hblock (n + 1) rest
    rw [← hdate]
    exact hrest day hday
  have hyear : (some year).or s.year = (some year).or ({} : Scanner).year := rfl
  have haccepted : ∀ date, date ∈ s.accepted ↔
      date ∈ ({} : Scanner).accepted ∨ date ∈ s.accepted := by simp
  rw [← hbegun] at hnew
  obtain ⟨hfindings, hextends⟩ := beginDay_extends hyear haccepted hnew
  rw [hbegun] at hfindings hextends
  have hcomplete := hextends.complete_eq hremembers hrest
  simp [afresh, complete_cons, step_of_date s hkind, hstep, hfindings, hcomplete]

end Scanner

/-! ### Two logs -/

/-- The dates that have their day in a scan. -/
def datesOf (days : List ScannedDay) : List Date := days.map fun day => day.log.date

/-- A scanner has accepted the dates that have their day in a log. -/
theorem mem_accepted_iff {setup : ScanSetup} {lines : List String} {date : Date} :
    date ∈ (({} : Scanner).steps setup 1 lines).1.accepted ↔
      date ∈ datesOf (setup.scan lines).1 := by
  have hnamed := (Scanner.remembers_steps setup lines).accepted date
  have hdates : datesOf (setup.scan lines).1 = (setup.openings lines).map Opening.date := by
    simp [datesOf, days_scan]
  rw [hnamed, hdates, List.mem_map]
  constructor
  · intro h
    obtain ⟨p, hp, hdate, hfirst⟩ := exists_first_of_mem_namedDates h
    exact ⟨⟨p, date⟩, Opening.mem_openings.mpr ⟨hp, hdate, hfirst⟩, rfl⟩
  · rintro ⟨o, ho, rfl⟩
    rcases Opening.mem_openings.mp ho with ⟨hp, hdate, -⟩
    exact List.mem_filterMap.mpr ⟨o.place, hp, hdate⟩

/-- Whether the first line that is not blank is a date line of the full form. -/
def beginsWithFullDate (table : RuleTable) (lines : List String) : Bool :=
  match (lines.map fun raw => classify table (trimmed raw)).find? (· ≠ .blank) with
  | some (.date (some _) _ _) => true
  | _ => false

theorem exists_of_beginsWithFullDate {table : RuleTable} {lines : List String}
    (h : beginsWithFullDate table lines = true) :
    ∃ blanks raw rest year month day, lines = blanks ++ raw :: rest ∧
      (∀ blank ∈ blanks, classify table (trimmed blank) = .blank) ∧
      classify table (trimmed raw) = .date (some year) month day := by
  unfold beginsWithFullDate at h
  split at h
  next year month day hfound =>
    rw [List.find?_map] at hfound
    rcases Option.map_eq_some_iff.mp hfound with ⟨raw, hraw, hkind⟩
    obtain ⟨-, blanks, rest, hlines, hblanks⟩ := List.find?_eq_some_iff_append.mp hraw
    refine ⟨blanks, raw, rest, year, month, day, hlines, ?_, hkind⟩
    intro blank hblank
    simpa using hblanks blank hblank
  next => cases h

/-- **Scanning goes through concatenation at full dates.**  If the second of two logs begins with a
    date line of the full form and none of its days has a date that had its day in the first one,
    the scan of both together gives the days of the first and then those of the second, scanned for
    itself under the numbers of its lines, and raises what the two scans raise, in that order. -/
theorem scan_append {setup : ScanSetup} {first second : List String}
    (hfull : beginsWithFullDate setup.table second = true)
    (hdates : ∀ date ∈ datesOf (({} : Scanner).complete setup (first.length + 1) second).1,
      date ∉ datesOf (setup.scan first).1) :
    let afresh := ({} : Scanner).complete setup (first.length + 1) second
    setup.scan (first ++ second) =
      ((setup.scan first).1 ++ afresh.1, (setup.scan first).2 ++ afresh.2) := by
  intro afresh
  obtain ⟨blanks, raw, rest, year, month, day, hsecond, hblanks, hkind⟩ :=
    exists_of_beginsWithFullDate hfull
  -- blank lines leave any scanner as it is, the new one too
  have hskip (s : Scanner) (n : Nat) :
      s.complete setup n second = s.complete setup (n + blanks.length) (raw :: rest) := by
    simp [hsecond, Scanner.complete_append, Scanner.steps_blank s n hblanks]
  have hdays : ∀ day ∈ (({} : Scanner).complete setup (first.length + 1 + blanks.length)
      (raw :: rest)).1, day.log.date ∉ (({} : Scanner).steps setup 1 first).1.accepted := by
    intro day hday hmem
    rw [← hskip] at hday
    exact hdates _ (List.mem_map_of_mem hday) (mem_accepted_iff.mp hmem)
  have hboth := Scanner.complete_of_full_date (({} : Scanner).steps setup 1 first).1 hkind hdays
  have hscan (lines : List String) :
      setup.scan lines = ({} : Scanner).complete setup 1 lines := rfl
  have hnumber : 1 + first.length = first.length + 1 := Nat.add_comm 1 _
  rw [hscan, hscan, Scanner.complete_append, hnumber]
  dsimp only
  rw [hskip, hboth, ← hskip]
  simp [Scanner.complete, afresh]

/-- The last day of a year and the first days of the next one: the short dates of the second log
    belong to its own year, and its repeated date is its own as well. -/
theorem scan_append_new_year :
    let setup : ScanSetup := { table := {}, fallbackYear := 2020, file := "log.txt" }
    let first := ["stray", "12_30", "2024_12_31", "Status:1", "2300 x"]
    let second := ["", "2025_01_01", "0700wake", "12_31", "0800 y", "01_01", "12_30"]
    let afresh := ({} : Scanner).complete setup (first.length + 1) second
    beginsWithFullDate setup.table second = true ∧
      (∀ date ∈ datesOf afresh.1, date ∉ datesOf (setup.scan first).1) ∧
      (setup.scan (first ++ second)).1.map (fun day => (day.log.date.text, day.log.line)) =
        [("2020-12-30", 2), ("2024-12-31", 3), ("2025-01-01", 7), ("2025-12-31", 9),
          ("2025-12-30", 12)] ∧
      setup.scan (first ++ second) =
        ((setup.scan first).1 ++ afresh.1, (setup.scan first).2 ++ afresh.2) := by
  refine ⟨?full, ?dates, ?days, scan_append ?full ?dates⟩
  case full => decide +kernel
  case dates => decide +kernel
  case days => decide +kernel

end Daybook
