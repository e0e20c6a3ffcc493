/-
  Daybook/Proofs/Scan/Reading.lean
  ================================
  **A log read as a whole.**  A scanner sees one line after the other; here a log
  is looked at all at once.  Each line stands at a `Place`, between the lines
  before it and the lines after it, and what a date line means is said by those
  alone:

    * its year is its own, or that of the last date line before it that gives one,
      or the fallback year (`Place.year`);
    * it opens a day when its year, month and day make a date that no line before
      it has named (`Place.opening?`);
    * the block of the day are the lines up to the next date line (`Place.block`),
      and its activity lines say when the day began and what was done in it.

  No definition here mentions a scanner; that a scan finds just this is proved in
  `Daybook/Proofs/Scan/Run.lean`.
-/
import Daybook.Scan.Scanner

namespace Daybook

open Daybook.Text

/-! ### Lines -/

/-- A line of a log: its number, its text without the blanks around it, and what it is. -/
structure LogLine where
  number : Nat
  text : String
  kind : LineKind
deriving DecidableEq, Repr

namespace LogLine

def ofRaw (table : RuleTable) (number : Nat) (raw : String) : LogLine :=
  { number, text := trimmed raw, kind := classify table (trimmed raw) }

@[simp] theorem number_ofRaw (table : RuleTable) (number : Nat) (raw : String) :
    (ofRaw table number raw).number = number := by simp only [ofRaw]

@[simp] theorem text_ofRaw (table : RuleTable) (number : Nat) (raw : String) :
    (ofRaw table number raw).text = trimmed raw := by simp only [ofRaw]

@[simp] theorem kind_ofRaw (table : RuleTable) (number : Nat) (raw : String) :
    (ofRaw table number raw).kind = classify table (trimmed raw) := by simp only [ofRaw]

def isDate (l : LogLine) : Bool :=
  match l.kind with
  | .date _ _ _ => true
  | _ => false

/-- The year that a date line of the full form gives. -/
def fullYear? (l : LogLine) : Option Int :=
  match l.kind with
  | .date year _ _ => year
  | _ => none

def activity? (l : LogLine) : Option WrittenActivity :=
  match l.kind with
  | .activity written => some written
  | _ => none

/-- The time that a getup header gives, if its value is a time. -/
def getup? (l : LogLine) : Option TimeOfDay :=
  match l.kind with
  | .header .getup value _ => TimeOfDay.ofHHMM? value.toList
  | _ => none

end LogLine

/-- The lines of a log, numbered from `n` on. -/
def logLines (table : RuleTable) : Nat → List String → List LogLine
  | _, [] => []
  | n, raw :: rest => .ofRaw table n raw :: logLines table (n + 1) rest

/-! ### Places -/

/-- A line of a log between the lines before it and the lines after it. -/
structure Place where
  before : List LogLine
  line : LogLine
  after : List LogLine
deriving DecidableEq, Repr

/-- The places of the lines that follow on `before`, in order. -/
def placesFrom (before : List LogLine) : List LogLine → List Place
  | [] => []
  | line :: after => ⟨before, line, after⟩ :: placesFrom (before ++ [line]) after

def places (log : List LogLine) : List Place := placesFrom [] log

theorem mem_placesFrom {before log : List LogLine} {p : Place} :
    p ∈ placesFrom before log ↔ p.before ++ p.line :: p.after = before ++ log ∧
      before.length ≤ p.before.length := by
  induction log generalizing before with
  | nil =>
    simp only [placesFrom, List.not_mem_nil, List.append_nil, false_iff, not_and]
    intro h hle
    have := congrArg List.length h
    simp at this
    omega
  | cons line rest ih =>
    simp only [placesFrom, List.mem_cons, ih, List.append_assoc, List.singleton_append,
      List.length_append, List.length_singleton]
    constructor
    · rintro (rfl | ⟨h, hle⟩)
      · exact ⟨rfl, Nat.le_refl _⟩
      · exact ⟨h, by omega⟩
    · rintro ⟨h, hle⟩
      by_cases hlt : before.length < p.before.length
      · exact .inr ⟨h, hlt⟩
      · obtain ⟨hbefore, hrest⟩ := List.append_inj h (by omega)
        obtain ⟨hline, hafter⟩ := List.cons.inj hrest
        exact .inl (by cases p; simp_all)

/-- A place of a log is a way to cut it at a line. -/
theorem mem_places {log : List LogLine} {p : Place} :
    p ∈ places log ↔ p.before ++ p.line :: p.after = log := by
  simp [places, mem_placesFrom]

theorem placesFrom_append (before xs ys : List LogLine) :
    placesFrom before (xs ++ ys) =
      (placesFrom before xs).map (fun p => { p with after := p.after ++ ys }) ++
        placesFrom (before ++ xs) ys := by
  induction xs generalizing before with
  | nil => simp [placesFrom]
  | cons x xs ih => simp [placesFrom, ih]

/-! ### Dates -/

def lastYear? (lines : List LogLine) : Option Int :=
  (lines.filterMap LogLine.fullYear?).getLast?

namespace Place

/-- The year that the log has given up to a date line: its own, or the last one before it. -/
def knownYear? (p : Place) : Option Int := p.line.fullYear?.or (lastYear? p.before)

def year (fallback : Int) (p : Place) : Int := p.knownYear?.getD fallback

/-- The date that a date line names, if there is such a date. -/
def date? (fallback : Int) (p : Place) : Option Date :=
  match p.line.kind with
  | .date _ month day => Date.ofYMD? (p.year fallback) month day
  | _ => none

end Place

/-- The dates that lines name, in order and with repetitions. -/
def namedDates (fallback : Int) (lines : List LogLine) : List Date :=
  (places lines).filterMap (Place.date? fallback)

theorem lastYear?_append_singleton (lines : List LogLine) (l : LogLine) :
    lastYear? (lines ++ [l]) = l.fullYear?.or (lastYear? lines) := by
  unfold lastYear?
  cases hl : l.fullYear? with
  | none => simp [hl]
  | some year => simp [hl]

theorem namedDates_append_singleton (fallback : Int) (lines : List LogLine) (l : LogLine) :
    namedDates fallback (lines ++ [l]) =
      namedDates fallback lines ++ (Place.date? fallback ⟨lines, l, []⟩).toList := by
  have hsame : (Place.date? fallback ∘ fun p => { p with after := p.after ++ [l] }) =
      Place.date? fallback := rfl
  simp only [namedDates, places, placesFrom_append, List.filterMap_append, List.filterMap_map,
    hsame, List.nil_append, placesFrom]
  cases hdate : Place.date? fallback ⟨lines, l, []⟩ with
  | none => simp [hdate]
  | some date => simp [hdate]

/-! ### Openings -/

/-- A date line that opens a day, with the date of the day. -/
structure Opening where
  place : Place
  date : Date
deriving DecidableEq, Repr

/-- The day that a date line opens: that of the date it names, unless a line before it has named
    that date. -/
def Place.opening? (fallback : Int) (p : Place) : Option Opening :=
  match p.date? fallback with
  | none => none
  | some date => if date ∈ namedDates fallback p.before then none else some ⟨p, date⟩

/-- The days opened by lines that follow on `before`. -/
def openingsFrom (fallback : Int) (before log : List LogLine) : List Opening :=
  (placesFrom before log).filterMap (Place.opening? fallback)

def ScanSetup.openings (setup : ScanSetup) (lines : List String) : List Opening :=
  openingsFrom setup.fallbackYear [] (logLines setup.table 1 lines)

theorem Place.opening?_eq_some {fallback : Int} {p : Place} {o : Opening} :
    p.opening? fallback = some o ↔
      o.place = p ∧ p.date? fallback = some o.date ∧ o.date ∉ namedDates fallback p.before := by
  obtain ⟨q, date⟩ := o
  unfold opening?
  cases hdate : p.date? fallback with
  | none => simp
  | some found =>
    by_cases hnamed : found ∈ namedDates fallback p.before
    · simp only [hnamed, if_true, reduceCtorEq, Option.some.injEq, false_iff, not_and]
      rintro - rfl hnot
      exact hnot hnamed
    · simp only [hnamed, if_false, Option.some.injEq, Opening.mk.injEq]
      constructor
      · rintro ⟨rfl, rfl⟩
        exact ⟨rfl, rfl, hnamed⟩
      · rintro ⟨rfl, rfl, -⟩
        exact ⟨rfl, rfl⟩

/-! ### Blocks -/

/-- The lines of a day: those after its date line up to the next date line. -/
def Place.block (p : Place) : List LogLine := p.after.takeWhile fun l => !l.isDate

structure ActivityLine where
  number : Nat
  written : WrittenActivity
deriving DecidableEq, Repr

def LogLine.activityLine? (l : LogLine) : Option ActivityLine := l.activity?.map (⟨l.number, ·⟩)

def activityLines (block : List LogLine) : List ActivityLine :=
  block.filterMap LogLine.activityLine?

namespace RuleTable

def wakes (table : RuleTable) (line : ActivityLine) : Bool :=
  table.isWake line.written.description

/-- When a day opens with waking up: the time of its first activity line, if that is a wake
    line. -/
def openingWake? (table : RuleTable) : List ActivityLine → Option TimeOfDay
  | [] => none
  | first :: _ => if table.wakes first then some first.written.endTime else none

/-- The activity lines that are recorded: all but a wake line in front. -/
def recordedLines (table : RuleTable) : List ActivityLine → List ActivityLine
  | [] => []
  | first :: rest => if table.wakes first then rest else first :: rest

theorem recordedLines_sublist (table : RuleTable) (lines : List ActivityLine) :
    (table.recordedLines lines).Sublist lines := by
  cases lines with
  | nil => exact .slnil
  | cons first rest =>
    rw [recordedLines]
    split
    · exact List.sublist_cons_self first rest
    · exact .refl _

end RuleTable

/-- The last time that a getup header gives before the first activity line. -/
def getupBefore? (block : List LogLine) : Option TimeOfDay :=
  ((block.takeWhile fun l => l.activity?.isNone).filterMap LogLine.getup?).getLast?

/-- Where the first activity of a block starts: at the wake line that opens the day, else at the
    getup time, else at the usual start of a day. -/
def firstStart (table : RuleTable) (usual : TimeOfDay) (block : List LogLine) : TimeOfDay :=
  ((table.openingWake? (activityLines block)).or (getupBefore? block)).getD usual

end Daybook
