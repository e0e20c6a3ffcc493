/-
  Daybook/Scan/Scanner.lean
  =========================
  **Scanning a log.**  A scanner reads numbered lines one after the other.  A date
  line ends the day before it and begins a new one, unless the date does not exist
  or had its day already: then the lines up to the next date line are passed
  over.  A date without a year has the year of the last date line that gave one.
  Nothing stops a scan; what is wrong is reported.
-/
import Daybook.Scan.DayLine

namespace Daybook

open Daybook.Text

inductive Phase where
  | beforeFirstDate
  | inDay (block : Block)
  /-- The last date line began no day. -/
  | skipping
deriving DecidableEq, Repr

structure Scanner where
  phase : Phase := .beforeFirstDate
  /-- The year of the last date line that gave one. -/
  year : Option Int := none
  /-- The dates that have had their day. -/
  accepted : List Date := []
deriving DecidableEq, Repr

/-- What a line does to a scan: what follows, the day that it ends, and what it raises. -/
structure Scanned where
  scanner : Scanner
  day : Option ScannedDay := none
  findings : List Diagnostic := []
deriving DecidableEq, Repr

namespace Scanner

/-! ### Ending a day -/

/-- The open day, ended, and what is missing in it. -/
def finish (s : Scanner) (setup : ScanSetup) : Option ScannedDay × List Diagnostic :=
  match s.phase with
  | .inDay block =>
    let (day, findings) := block.close setup.table setup.file
    (some day, findings)
  | .beforeFirstDate | .skipping => (none, [])

/-! ### Date lines -/

/-- Begins the day of a date line, or passes over it. -/
def beginDay (s : Scanner) (setup : ScanSetup) (line : Nat) (text : String) (year : Option Int)
    (month day : Nat) : Scanner × List Diagnostic :=
  let known := year.or s.year
  let effective := known.getD setup.fallbackYear
  match Date.ofYMD? effective month day with
  | none =>
    ({ s with phase := .skipping, year := known },
      [setup.finding .invalidDate line text none
        s!"'{text}' is not a calendar date in {effective}; skipping the day"])
  | some date =>
    if date ∈ s.accepted then
      ({ s with phase := .skipping, year := known },
        [setup.finding .duplicateDate line text none
          s!"{date.text} appears more than once; skipping the repeated day"])
    else
      ({ phase := .inDay { date, line, dateText := text }, year := known,
         accepted := date :: s.accepted },
        if known.isSome then []
        else
          [setup.finding .missingYear line text none
            s!"date '{text}' has no year and no earlier full date; assuming {effective}"])

/-! ### One line -/

def step (s : Scanner) (setup : ScanSetup) (line : Nat) (raw : String) : Scanned :=
  let text := trimmed raw
  match classify setup.table text with
  | .blank => { scanner := s }
  | .date year month day =>
    let (ended, missing) := s.finish setup
    let (next, findings) := s.beginDay setup line text year month day
    { scanner := next, day := ended, findings := missing ++ findings }
  | kind =>
    match s.phase with
    | .beforeFirstDate =>
      { scanner := s
        findings := [setup.finding .noDateAtStart line text none
          "content before the first date line"] }
    | .skipping => { scanner := s }
    | .inDay block =>
      let (block, findings) := block.readLine setup line text kind
      { scanner := { s with phase := .inDay block }, findings }

/-! ### Many lines -/

/-- Reads lines numbered from `line` on: the scan after them, the days that ended among them, and
    what they raised. -/
def steps (s : Scanner) (setup : ScanSetup) (line : Nat) :
    List String → Scanner × List ScannedDay × List Diagnostic
  | [] => (s, [], [])
  | raw :: rest =>
    let scanned := s.step setup line raw
    let (last, days, findings) := scanned.scanner.steps setup (line + 1) rest
    (last, scanned.day.toList ++ days, scanned.findings ++ findings)

end Scanner

/-- Scans a whole log: its days and what they raised. -/
def ScanSetup.scan (setup : ScanSetup) (lines : List String) : List ScannedDay × List Diagnostic :=
  let (last, days, findings) := ({} : Scanner).steps setup 1 lines
  let (ended, missing) := last.finish setup
  (days ++ ended.toList, findings ++ missing)

end Daybook
