/-
  Daybook/Proofs/Scan/Steps.lean
  ==============================
  **A scan, step by step.**  What one line does depends on the phase: before the
  first date line and after a rejected one a line changes nothing, and inside a
  day it changes the block and nothing else; only a date line ends a day and
  begins one.  A scan over two stretches of lines is the scan over the first and
  then over the second (`steps_append`), and wherever it stands, it remembers the
  lines read so far (`Remembers.steps`).
-/
import Daybook.Proofs.Scan.Run

namespace Daybook

open Daybook.Text

theorem logLines_append (table : RuleTable) (n : Nat) (xs ys : List String) :
    logLines table n (xs ++ ys) = logLines table n xs ++ logLines table (n + xs.length) ys := by
  induction xs generalizing n with
  | nil => simp [logLines]
  | cons raw rest ih =>
    simp only [List.cons_append, logLines, ih, List.length_cons]
    rw [Nat.add_assoc, Nat.add_comm 1]

@[simp] theorem length_logLines (table : RuleTable) (n : Nat) (lines : List String) :
    (logLines table n lines).length = lines.length := by
  induction lines generalizing n with
  | nil => rfl
  | cons raw rest ih => simp [logLines, ih]

theorem exists_of_logLines_eq_append {table : RuleTable} {n : Nat} {lines : List String}
    {first second : List LogLine} (h : logLines table n lines = first ++ second) :
    ∃ xs ys, lines = xs ++ ys ∧ first = logLines table n xs ∧
      second = logLines table (n + xs.length) ys := by
  have hcut := logLines_append table n (lines.take first.length) (lines.drop first.length)
  rw [List.take_append_drop, h] at hcut
  have hlength : first.length = (logLines table n (lines.take first.length)).length := by
    have htotal := congrArg List.length h
    rw [length_logLines, List.length_append] at htotal
    rw [length_logLines, List.length_take]
    omega
  obtain ⟨hfirst, hsecond⟩ := List.append_inj hcut hlength
  exact ⟨_, _, (List.take_append_drop first.length lines).symm, hfirst, hsecond⟩

theorem exists_of_logLines_eq_cons {table : RuleTable} {n : Nat} {lines : List String}
    {l : LogLine} {rest : List LogLine} (h : logLines table n lines = l :: rest) :
    ∃ raw more, lines = raw :: more ∧ l = LogLine.ofRaw table n raw ∧
      rest = logLines table (n + 1) more := by
  cases lines with
  | nil => cases h
  | cons raw more =>
    obtain ⟨hline, hrest⟩ := List.cons.inj h
    exact ⟨raw, more, rfl, hline.symm, hrest.symm⟩

namespace Scanner

/-! ### One line -/

theorem step_of_blank (s : Scanner) {setup : ScanSetup} (n : Nat) {raw : String}
    (h : classify setup.table (trimmed raw) = .blank) : s.step setup n raw = { scanner := s } := by
  simp [step, h]

theorem step_beforeFirstDate {s : Scanner} {setup : ScanSetup} {n : Nat} {raw : String}
    (hs : s.phase = .beforeFirstDate) (hl : (LogLine.ofRaw setup.table n raw).isDate = false) :
    s.step setup n raw =
      { scanner := s, findings := strayFindings setup [LogLine.ofRaw setup.table n raw] } := by
  cases hkind : classify setup.table (trimmed raw) with
  | date year month day => simp [LogLine.isDate, hkind] at hl
  | _ => simp [step, hkind, hs, strayFindings]

theorem step_skipping {s : Scanner} {setup : ScanSetup} {n : Nat} {raw : String}
    (hs : s.phase = .skipping) (hl : (LogLine.ofRaw setup.table n raw).isDate = false) :
    s.step setup n raw = { scanner := s } := by
  cases hkind : classify setup.table (trimmed raw) with
  | date year month day => simp [LogLine.isDate, hkind] at hl
  | _ => simp [step, hkind, hs]

theorem step_inDay {s : Scanner} {setup : ScanSetup} {n : Nat} {raw : String} {block : Block}
    (hs : s.phase = .inDay block) (hl : (LogLine.ofRaw setup.table n raw).isDate = false) :
    let read := block.readLine setup n (trimmed raw) (classify setup.table (trimmed raw))
    s.step setup n raw =
      { scanner := { s with phase := .inDay read.1 }, findings := read.2 } := by
  cases hkind : classify setup.table (trimmed raw) with
  | date year month day => simp [LogLine.isDate, hkind] at hl
  | blank =>
    obtain ⟨phase, year, accepted⟩ := s
    obtain rfl : phase = .inDay block := hs
    simp [step, hkind, Block.readLine]
  | _ => simp [step, hkind, hs]

/-- A date line begins a day, or the lines after it are passed over. -/
theorem phase_beginDay (s : Scanner) (setup : ScanSetup) (n : Nat) (text : String)
    (year : Option Int) (month day : Nat) :
    (s.beginDay setup n text year month day).1.phase = .skipping ∨
      ∃ date, (s.beginDay setup n text year month day).1.phase =
        .inDay { date, line := n, dateText := text } := by
  dsimp only [beginDay]
  split
  · exact .inl rfl
  · split
    · exact .inl rfl
    · exact .inr ⟨_, rfl⟩

/-! ### Many lines -/

theorem steps_cons (s : Scanner) (setup : ScanSetup) (n : Nat) (raw : String)
    (rest : List String) :
    s.steps setup n (raw :: rest) =
      let r := s.step setup n raw
      let others := r.scanner.steps setup (n + 1) rest
      (others.1, r.day.toList ++ others.2.1, r.findings ++ others.2.2) := rfl

theorem scanner_steps_cons (s : Scanner) (setup : ScanSetup) (n : Nat) (raw : String)
    (rest : List String) :
    (s.steps setup n (raw :: rest)).1 =
      ((s.step setup n raw).scanner.steps setup (n + 1) rest).1 := by
  rw [steps_cons]

/-- **Scanning goes through concatenation.** -/
theorem steps_append (s : Scanner) (setup : ScanSetup) (n : Nat) (xs ys : List String) :
    s.steps setup n (xs ++ ys) =
      let first := s.steps setup n xs
      let second := first.1.steps setup (n + xs.length) ys
      (second.1, first.2.1 ++ second.2.1, first.2.2 ++ second.2.2) := by
  induction xs generalizing s n with
  | nil => simp [steps]
  | cons raw rest ih =>
    have hnumber : n + (rest.length + 1) = n + 1 + rest.length := by omega
    simp [steps_cons, ih, hnumber]

theorem complete_append (s : Scanner) (setup : ScanSetup) (n : Nat) (xs ys : List String) :
    s.complete setup n (xs ++ ys) =
      let first := s.steps setup n xs
      let second := first.1.complete setup (n + xs.length) ys
      (first.2.1 ++ second.1, first.2.2 ++ second.2) := by
  simp [complete, steps_append]

/-! ### What a scanner remembers -/

/-- Whatever a line is, the scanner keeps what it tells about years and dates. -/
theorem Remembers.step {s : Scanner} {setup : ScanSetup} {done : List LogLine}
    (h : s.Remembers setup.fallbackYear done) (n : Nat) (raw : String) :
    (s.step setup n raw).scanner.Remembers setup.fallbackYear
      (done ++ [LogLine.ofRaw setup.table n raw]) := by
  cases hl : (LogLine.ofRaw setup.table n raw).isDate with
  | false =>
    obtain ⟨-, hyear, haccepted, -⟩ := step_of_not_date (s := s) hl []
    exact h.of_not_date hl hyear haccepted
  | true =>
    obtain ⟨year, month, day, hkind⟩ := LogLine.exists_of_isDate hl
    have hbegun := beginDay_spec (p := ⟨done, LogLine.ofRaw setup.table n raw, []⟩) h rfl hkind
    rw [LogLine.kind_ofRaw] at hkind
    rw [step_of_date s hkind]
    simpa using hbegun.2.1

theorem Remembers.steps {s : Scanner} {setup : ScanSetup} {done : List LogLine}
    (h : s.Remembers setup.fallbackYear done) (n : Nat) (lines : List String) :
    (s.steps setup n lines).1.Remembers setup.fallbackYear
      (done ++ logLines setup.table n lines) := by
  induction lines generalizing s done n with
  | nil => simpa [Scanner.steps, logLines] using h
  | cons raw rest ih =>
    have hrest := ih (h.step n raw) (n + 1)
    rw [List.append_assoc, List.singleton_append] at hrest
    rw [scanner_steps_cons]
    exact hrest

theorem remembers_steps (setup : ScanSetup) (lines : List String) :
    (({} : Scanner).steps setup 1 lines).1.Remembers setup.fallbackYear
      (logLines setup.table 1 lines) := by
  simpa using (remembers_nil setup.fallbackYear).steps 1 lines

theorem steps_skipping {s : Scanner} {setup : ScanSetup} (hs : s.phase = .skipping) (n : Nat)
    {lines : List String} (hlines : ∀ l ∈ logLines setup.table n lines, l.isDate = false) :
    s.steps setup n lines = (s, [], []) := by
  induction lines generalizing n with
  | nil => rfl
  | cons raw rest ih =>
    have hfirst : (LogLine.ofRaw setup.table n raw).isDate = false :=
      hlines _ List.mem_cons_self
    have hrest := ih (n + 1) fun l hl => hlines l (List.mem_cons_of_mem _ hl)
    simp [steps_cons, step_skipping hs hfirst, hrest]

end Scanner

end Daybook
