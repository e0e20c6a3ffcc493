/-
  Daybook/Proofs/Scan/Rejected.lean
  =================================
  **Rejected lines leave no trace.**  A line that cannot be used, a line before
  the first date line and a line after a rejected date line are reported or passed
  over, and the scanner stands as it stood (`Idles`).  Take some of them out, and
  every other line does what it did: the same days end at the same lines, and only
  what was reported at the lines taken out is gone (`trace_blankOut`).
-/
import Daybook.Proofs.Scan.Spans
import Daybook.Proofs.Scan.Steps

namespace Daybook

open Daybook.Text

/-! ### Findings of one line -/

namespace Block

theorem readLine_of_unusable {b : Block} {setup : ScanSetup} {n : Nat} {text : String}
    {kind : LineKind} {d : Diagnostic} (hd : d ∈ (b.readLine setup n text kind).2)
    (hcode : d.code = .invalidLineFormat) : (b.readLine setup n text kind).1 = b := by
  cases kind with
  | activity written =>
    have hunrecognized := code_of_mem_readActivity hd
    rw [hcode] at hunrecognized
    cases hunrecognized
  | header field value column =>
    simp only [readLine, readHeader] at hd ⊢
    cases hread : HeaderEntry.read? field value with
    | none => rfl
    | some entry =>
      -- a header whose value is accepted is reported for its place only
      simp only [hread] at hd
      split at hd
      next code message hfault =>
        obtain rfl := List.mem_singleton.mp hd
        obtain rfl : code = .invalidLineFormat := hcode
        exact absurd (code_of_headerFault? hfault) (by decide)
      next => cases hd
  | _ => rfl

end Block

namespace Scanner

theorem mem_finish {s : Scanner} {setup : ScanSetup} {d : Diagnostic}
    (hd : d ∈ (s.finish setup).2) :
    d.code = .missingHeader ∧ ∃ block, s.phase = .inDay block ∧ d.line = block.line := by
  unfold finish at hd
  cases hphase : s.phase with
  | inDay block =>
    simp only [hphase] at hd
    exact ⟨Block.code_of_mem_close hd, block, rfl, (Block.raisesAt_of_mem_close hd).line_eq⟩
  | beforeFirstDate => simp [hphase] at hd
  | skipping => simp [hphase] at hd

theorem mem_beginDay {s : Scanner} {setup : ScanSetup} {n : Nat} {text : String}
    {year : Option Int} {month day : Nat} {d : Diagnostic}
    (hd : d ∈ (s.beginDay setup n text year month day).2) : d.code ∈ dateCodes ∧ d.line = n := by
  dsimp only [beginDay] at hd
  split at hd
  · obtain rfl := List.mem_singleton.mp hd
    simp [dateCodes]
  · split at hd
    · obtain rfl := List.mem_singleton.mp hd
      simp [dateCodes]
    · split at hd
      · cases hd
      · obtain rfl := List.mem_singleton.mp hd
        simp [dateCodes]

/-- **A finding is about the line that is read**, or about a header missing in the day that the line
    ends. -/
theorem line_of_mem_step {s : Scanner} {setup : ScanSetup} {n : Nat} {raw : String}
    {d : Diagnostic} (hd : d ∈ (s.step setup n raw).findings) :
    d.line = n ∨ ∃ block, s.phase = .inDay block ∧ d.line = block.line := by
  cases hl : (LogLine.ofRaw setup.table n raw).isDate with
  | true =>
    obtain ⟨year, month, day, hkind⟩ := LogLine.exists_of_isDate hl
    rw [LogLine.kind_ofRaw] at hkind
    rw [step_of_date s hkind] at hd
    dsimp only at hd
    rcases List.mem_append.mp hd with hd | hd
    · exact .inr (mem_finish hd).2
    · exact .inl (mem_beginDay hd).2
  | false =>
    cases hphase : s.phase with
    | beforeFirstDate =>
      rw [step_beforeFirstDate hphase hl] at hd
      dsimp only at hd
      rcases List.mem_flatMap.mp hd with ⟨l, hmem, hd⟩
      obtain rfl := List.mem_singleton.mp hmem
      split at hd
      · cases hd
      · obtain rfl := List.mem_singleton.mp hd
        simp
    | skipping =>
      rw [step_skipping hphase hl] at hd
      dsimp only at hd
      cases hd
    | inDay block =>
      rw [step_inDay hphase hl] at hd
      dsimp only at hd
      exact .inl (Block.raisesAt_of_mem_readLine hd).line_eq

/-! ### Lines that change nothing -/

/-- Whether a line is no date line and leaves a scan as it stands. -/
structure Idles (s : Scanner) (setup : ScanSetup) (n : Nat) (raw : String) : Prop where
  isDate : (LogLine.ofRaw setup.table n raw).isDate = false
  scanner : (s.step setup n raw).scanner = s
  day : (s.step setup n raw).day = none
  line : ∀ d ∈ (s.step setup n raw).findings, d.line = n

theorem idles_of_skipping {s : Scanner} {setup : ScanSetup} {n : Nat} {raw : String}
    (hs : s.phase = .skipping) (hl : (LogLine.ofRaw setup.table n raw).isDate = false) :
    s.Idles setup n raw := by
  have hstep := step_skipping hs hl
  exact ⟨hl, by rw [hstep], by rw [hstep], by simp [hstep]⟩

/-- The codes of lines that cannot be used where they stand. -/
def unusableCodes : List Code := [.invalidLineFormat, .noDateAtStart]

/-- **A line that cannot be used where it stands changes nothing.** -/
theorem idles_of_unusable {s : Scanner} {setup : ScanSetup} {n : Nat} {raw : String}
    {d : Diagnostic} (hd : d ∈ (s.step setup n raw).findings) (hcode : d.code ∈ unusableCodes) :
    s.Idles setup n raw ∧ d.line = n := by
  cases hl : (LogLine.ofRaw setup.table n raw).isDate with
  | true =>
    -- a date line raises findings of other codes
    obtain ⟨year, month, day, hkind⟩ := LogLine.exists_of_isDate hl
    rw [LogLine.kind_ofRaw] at hkind
    rw [step_of_date s hkind] at hd
    dsimp only at hd
    rcases List.mem_append.mp hd with hd | hd
    · rw [(mem_finish hd).1] at hcode
      exact absurd hcode (by decide)
    · have hne : ∀ code ∈ dateCodes, code ∉ unusableCodes := by decide
      exact absurd hcode (hne _ (mem_beginDay hd).1)
  | false =>
    cases hphase : s.phase with
    | beforeFirstDate =>
      have hstep := step_beforeFirstDate hphase hl
      have hline : ∀ d ∈ (s.step setup n raw).findings, d.line = n := by
        intro d hd
        rcases line_of_mem_step hd with hline | ⟨block, hblock, -⟩
        · exact hline
        · rw [hphase] at hblock
          cases hblock
      exact ⟨⟨hl, by rw [hstep], by rw [hstep], hline⟩, hline d hd⟩
    | skipping =>
      rw [step_skipping hphase hl] at hd
      dsimp only at hd
      cases hd
    | inDay block =>
      have hstep := step_inDay hphase hl
      dsimp only at hstep
      rw [hstep] at hd
      dsimp only at hd
      have hinvalid : d.code = .invalidLineFormat := by
        have hne : ∀ code ∈ dayLineCodes, code ∈ unusableCodes → code = .invalidLineFormat := by
          decide
        exact hne _ (Block.code_of_mem_readLine hd) hcode
      have hblock := Block.readLine_of_unusable hd hinvalid
      refine ⟨⟨hl, ?_, by rw [hstep], ?_⟩, (Block.raisesAt_of_mem_readLine hd).line_eq⟩
      · rw [hstep, hblock]
        obtain ⟨phase, year, accepted⟩ := s
        obtain rfl : phase = .inDay block := hphase
        rfl
      · intro d hd
        rw [hstep] at hd
        dsimp only at hd
        exact (Block.raisesAt_of_mem_readLine hd).line_eq

/-! ### Where findings and open days come from -/

/-- What a scan raises, it raises at some line or at its end. -/
theorem exists_cut_of_mem_complete {s : Scanner} {setup : ScanSetup} {n : Nat}
    {lines : List String} {d : Diagnostic} (hd : d ∈ (s.complete setup n lines).2) :
    (∃ before raw after, lines = before ++ raw :: after ∧
        d ∈ ((s.steps setup n before).1.step setup (n + before.length) raw).findings) ∨
      d ∈ ((s.steps setup n lines).1.finish setup).2 := by
  induction lines generalizing s n with
  | nil =>
    rw [complete_nil] at hd
    exact .inr hd
  | cons raw rest ih =>
    rw [complete_cons] at hd
    rcases List.mem_append.mp hd with hd | hd
    · exact .inl ⟨[], raw, rest, rfl, hd⟩
    · rcases ih hd with ⟨before, later, after, rfl, hfound⟩ | hend
      · refine .inl ⟨raw :: before, later, after, rfl, ?_⟩
        have hnumber : n + (raw :: before).length = n + 1 + before.length := by
          rw [List.length_cons]
          omega
        rw [scanner_steps_cons, hnumber]
        exact hfound
      · rw [← scanner_steps_cons] at hend
        exact .inr hend

theorem phase_step {s : Scanner} {setup : ScanSetup} {n : Nat} {raw : String} {block : Block}
    (h : (s.step setup n raw).scanner.phase = .inDay block) :
    (∃ earlier, s.phase = .inDay earlier ∧ earlier.line = block.line) ∨
      ((LogLine.ofRaw setup.table n raw).isDate = true ∧ block.line = n) := by
  cases hl : (LogLine.ofRaw setup.table n raw).isDate with
  | true =>
    obtain ⟨year, month, day, hkind⟩ := LogLine.exists_of_isDate hl
    rw [LogLine.kind_ofRaw] at hkind
    rw [step_of_date s hkind] at h
    dsimp only at h
    rcases phase_beginDay s setup n (trimmed raw) year month day with hbegun | ⟨date, hbegun⟩
    · rw [hbegun] at h
      cases h
    · rw [hbegun] at h
      cases h
      exact .inr ⟨rfl, rfl⟩
  | false =>
    cases hphase : s.phase with
    | beforeFirstDate =>
      rw [step_beforeFirstDate hphase hl, hphase] at h
      cases h
    | skipping =>
      rw [step_skipping hphase hl, hphase] at h
      cases h
    | inDay earlier =>
      rw [step_inDay hphase hl] at h
      dsimp only at h
      have htitle := earlier.title_readLine setup n (trimmed raw)
        (classify setup.table (trimmed raw))
      rw [Phase.inDay.inj h] at htitle
      simp only [Block.title, Prod.mk.injEq] at htitle
      exact .inl ⟨earlier, rfl, htitle.2.1.symm⟩

theorem exists_date_line_of_inDay {s : Scanner} {setup : ScanSetup} {n : Nat}
    {lines : List String} {block : Block} (h : (s.steps setup n lines).1.phase = .inDay block) :
    (∃ earlier, s.phase = .inDay earlier ∧ earlier.line = block.line) ∨
      ∃ before raw after, lines = before ++ raw :: after ∧ block.line = n + before.length ∧
        (LogLine.ofRaw setup.table (n + before.length) raw).isDate = true := by
  induction lines generalizing s n with
  | nil => exact .inl ⟨block, h, rfl⟩
  | cons raw rest ih =>
    rw [scanner_steps_cons] at h
    rcases ih h with ⟨opened, hopened, hline⟩ | ⟨before, later, after, rfl, hline, hdate⟩
    · rcases phase_step hopened with ⟨earlier, hearlier, hsame⟩ | ⟨hdate, hn⟩
      · exact .inl ⟨earlier, hearlier, hsame.trans hline⟩
      · exact .inr ⟨[], raw, rest, rfl, hline.symm.trans hn, hdate⟩
    · have hnumber : n + (raw :: before).length = n + 1 + before.length := by
        rw [List.length_cons]
        omega
      refine .inr ⟨raw :: before, later, after, rfl, ?_, ?_⟩
      · rw [hnumber]
        exact hline
      · rw [hnumber]
        exact hdate

end Scanner

/-! ### Rejected lines -/

/-- Whether a line of a log is rejected: it is reported as one that cannot be used where it stands,
    or it stands between a date line that begins no day and the next date line. -/
inductive ScanSetup.Rejects (setup : ScanSetup) (lines : List String) (number : Nat) : Prop where
  | unusable (d : Diagnostic) (found : d ∈ (setup.scan lines).2)
      (code : d.code ∈ Scanner.unusableCodes) (line : d.line = number)
  | passedOver (p : Place) (place : p ∈ places (logLines setup.table 1 lines))
      (isDate : p.line.isDate = true) (begins : p.opening? setup.fallbackYear = none)
      (l : LogLine) (mem : l ∈ p.block) (line : l.number = number)

namespace ScanSetup

variable {setup : ScanSetup} {lines : List String}

/-- The lines of a block stand after its date line without a date line between. -/
theorem exists_cut_of_mem_block {p : Place} {l : LogLine} (hl : l ∈ p.block) :
    ∃ between after, p.after = between ++ l :: after ∧ l.isDate = false ∧
      ∀ other ∈ between, other.isDate = false := by
  obtain ⟨between, after, hblock⟩ := List.append_of_mem hl
  have hnone : ∀ other ∈ p.block, other.isDate = false := by
    intro other hother
    simpa using List.mem_takeWhile_imp hother
  refine ⟨between, after ++ p.after.dropWhile fun l => !l.isDate, ?_, hnone l hl, ?_⟩
  · rw [← List.cons_append, ← List.append_assoc, ← hblock]
    exact List.takeWhile_append_dropWhile.symm
  · intro other hother
    apply hnone
    rw [hblock]
    exact List.mem_append_left _ hother

/-- A scan that has come to a line of a rejected date line passes over it. -/
theorem exists_cut_of_passedOver {p : Place} (hp : p ∈ places (logLines setup.table 1 lines))
    (hdate : p.line.isDate = true) (hbegins : p.opening? setup.fallbackYear = none)
    {l : LogLine} (hl : l ∈ p.block) :
    ∃ before raw after, lines = before ++ raw :: after ∧ l.number = 1 + before.length ∧
      (({} : Scanner).steps setup 1 before).1.Idles setup (1 + before.length) raw := by
  obtain ⟨between, after, hafter, hnot, hbetween⟩ := exists_cut_of_mem_block hl
  -- the lines before the date line, the date line, those between it and `l`, and `l`
  obtain ⟨first, tail, rfl, hfirst, htail⟩ :=
    exists_of_logLines_eq_append (mem_places.mp hp).symm
  obtain ⟨dateRaw, others, rfl, hline, hothers⟩ := exists_of_logLines_eq_cons htail.symm
  rw [hafter] at hothers
  obtain ⟨middle, more, rfl, hmiddle, hmore⟩ := exists_of_logLines_eq_append hothers.symm
  obtain ⟨raw, rest, rfl, hraw, -⟩ := exists_of_logLines_eq_cons hmore.symm
  obtain ⟨year, month, day, hkind⟩ := LogLine.exists_of_isDate hdate
  have hremembers := Scanner.remembers_steps setup first
  rw [← hfirst] at hremembers
  have hbegun := (Scanner.beginDay_spec hremembers rfl hkind).2.2
  rw [Place.begun, hbegins, hline, LogLine.number_ofRaw, LogLine.text_ofRaw] at hbegun
  rw [hline, LogLine.kind_ofRaw] at hkind
  rw [hmiddle] at hbetween
  rw [hraw] at hnot
  have hsteps : (({} : Scanner).steps setup 1 (first ++ dateRaw :: middle)).1.phase =
      .skipping := by
    rw [Scanner.steps_append]
    dsimp only
    rw [Scanner.steps_cons, Scanner.step_of_date _ hkind]
    dsimp only
    rw [Scanner.steps_skipping hbegun _ hbetween]
    exact hbegun
  have hnumber : 1 + first.length + 1 + middle.length =
      1 + (first ++ dateRaw :: middle).length := by
    simp only [List.length_append, List.length_cons]
    omega
  rw [hnumber] at hnot
  refine ⟨first ++ dateRaw :: middle, raw, rest, by simp, ?_, ?_⟩
  · rw [hraw, LogLine.number_ofRaw, hnumber]
  · exact Scanner.idles_of_skipping hsteps hnot

/-- **A scan that has come to a rejected line stands as it stood after it.** -/
theorem Rejects.exists_cut {number : Nat} (h : setup.Rejects lines number) :
    ∃ before raw after, lines = before ++ raw :: after ∧ number = 1 + before.length ∧
      (({} : Scanner).steps setup 1 before).1.Idles setup (1 + before.length) raw := by
  cases h with
  | unusable d found code line =>
    rcases Scanner.exists_cut_of_mem_complete found with ⟨before, raw, after, hlines, hd⟩ | hend
    · obtain ⟨hidles, hline⟩ := Scanner.idles_of_unusable hd code
      exact ⟨before, raw, after, hlines, line.symm.trans hline, hidles⟩
    · rw [(Scanner.mem_finish hend).1] at code
      exact absurd code (by decide)
  | passedOver p place isDate begins l mem line =>
    obtain ⟨before, raw, after, hlines, hnumber, hidles⟩ :=
      exists_cut_of_passedOver place isDate begins mem
    exact ⟨before, raw, after, hlines, line.symm.trans hnumber, hidles⟩

/-- There is one way to cut a log at a line of a given number. -/
theorem cut_unique {before before' after after' : List String} {raw raw' : String}
    (h : before ++ raw :: after = before' ++ raw' :: after')
    (hlength : before.length = before'.length) : before = before' ∧ raw = raw' := by
  obtain ⟨hbefore, hrest⟩ := List.append_inj h hlength
  exact ⟨hbefore, (List.cons.inj hrest).1⟩

theorem Rejects.idles {number : Nat} (h : setup.Rejects lines number)
    {before after : List String} {raw : String} (hlines : lines = before ++ raw :: after)
    (hnumber : number = 1 + before.length) :
    (({} : Scanner).steps setup 1 before).1.Idles setup (1 + before.length) raw := by
  obtain ⟨found, raw', after', hcut, hlength, hidles⟩ := h.exists_cut
  obtain ⟨rfl, rfl⟩ := cut_unique (hlines.symm.trans hcut) (by omega)
  exact hidles

end ScanSetup

/-! ### Taking lines out -/

/-- What a scan gives at each line and last at its end: the day that is ended, and what is
    raised. -/
def Scanner.trace (s : Scanner) (setup : ScanSetup) (n : Nat) :
    List String → List (Option ScannedDay × List Diagnostic)
  | [] => [s.finish setup]
  | raw :: rest =>
    let r := s.step setup n raw
    (r.day, r.findings) :: r.scanner.trace setup (n + 1) rest

def ScanSetup.trace (setup : ScanSetup) (lines : List String) :
    List (Option ScannedDay × List Diagnostic) :=
  ({} : Scanner).trace setup 1 lines

theorem Scanner.complete_eq_trace (s : Scanner) (setup : ScanSetup) (n : Nat)
    (lines : List String) :
    s.complete setup n lines =
      ((s.trace setup n lines).flatMap (·.1.toList), (s.trace setup n lines).flatMap (·.2)) := by
  induction lines generalizing s n with
  | nil => simp [complete_nil, trace]
  | cons raw rest ih => simp [complete_cons, trace, ih]

theorem ScanSetup.scan_eq_trace (setup : ScanSetup) (lines : List String) :
    setup.scan lines =
      ((setup.trace lines).flatMap (·.1.toList), (setup.trace lines).flatMap (·.2)) :=
  ({} : Scanner).complete_eq_trace setup 1 lines

/-- The lines numbered from `n` on with blank texts in the place of the chosen ones. -/
def blankOut (chosen : Nat → Bool) (blank : Nat → String) : Nat → List String → List String
  | _, [] => []
  | n, raw :: rest => (if chosen n then blank n else raw) :: blankOut chosen blank (n + 1) rest

/-- What is left of a trace without the findings at the chosen lines. -/
def withoutLines (chosen : Nat → Bool) (said : Option ScannedDay × List Diagnostic) :
    Option ScannedDay × List Diagnostic :=
  (said.1, said.2.filter fun d => !chosen d.line)

theorem withoutLines_of_kept {chosen : Nat → Bool} (day : Option ScannedDay)
    {findings : List Diagnostic} (h : ∀ d ∈ findings, chosen d.line = false) :
    withoutLines chosen (day, findings) = (day, findings) := by
  have hkept : (findings.filter fun d => !chosen d.line) = findings := by
    apply List.filter_eq_self.mpr
    intro d hd
    simp [h d hd]
  simp [withoutLines, hkept]

namespace Scanner

/-- Whether a line may be taken out if it is chosen, and raises nothing at a chosen line if it is
    not. -/
def Agrees (setup : ScanSetup) (chosen : Nat → Bool) (s : Scanner) (n : Nat) (raw : String) :
    Prop :=
  (chosen n = true → s.Idles setup n raw) ∧
    (chosen n = false → ∀ d ∈ (s.step setup n raw).findings, chosen d.line = false)

theorem classify_blank {table : RuleTable} {text : String} (h : trimmed text = "") :
    classify table (trimmed text) = .blank := by
  rw [h]
  rfl

/-- **Lines that change nothing can be taken out of a scan.** -/
theorem trace_blankOut_of_agrees {setup : ScanSetup} {chosen : Nat → Bool} {blank : Nat → String}
    (hblank : ∀ k, trimmed (blank k) = "") {s : Scanner} {n : Nat} {lines : List String}
    (hlines : ∀ before raw after, lines = before ++ raw :: after →
      Agrees setup chosen (s.steps setup n before).1 (n + before.length) raw)
    (hend : ∀ d ∈ ((s.steps setup n lines).1.finish setup).2, chosen d.line = false) :
    s.trace setup n (blankOut chosen blank n lines) =
      (s.trace setup n lines).map (withoutLines chosen) := by
  -- both scans have the same scanner at every line, since a chosen line leaves it as it is
  induction lines generalizing s n with
  | nil =>
    have hkept : withoutLines chosen (s.finish setup) = s.finish setup :=
      withoutLines_of_kept _ hend
    simp [blankOut, trace, hkept]
  | cons raw rest ih =>
    have hfirst : Agrees setup chosen s n raw := hlines [] raw rest rfl
    obtain ⟨htaken, hkept⟩ := hfirst
    have hrest : ∀ before later after, rest = before ++ later :: after →
        Agrees setup chosen ((s.step setup n raw).scanner.steps setup (n + 1) before).1
          (n + 1 + before.length) later := by
      rintro before later after rfl
      have hlater := hlines (raw :: before) later after rfl
      have hnumber : n + (raw :: before).length = n + 1 + before.length := by
        rw [List.length_cons]
        omega
      rw [scanner_steps_cons, hnumber] at hlater
      exact hlater
    rw [scanner_steps_cons] at hend
    have htail := ih hrest hend
    rw [blankOut, trace, trace, List.map_cons, ← htail]
    cases hn : chosen n with
    | true =>
      obtain ⟨-, hscanner, hday, hline⟩ := htaken hn
      have hgone : ((s.step setup n raw).findings.filter fun d => !chosen d.line) = [] := by
        apply List.filter_eq_nil_iff.mpr
        intro d hd
        simp [hline d hd, hn]
      have hidle : s.step setup n (blank n) = { scanner := s } :=
        step_of_blank s n (classify_blank (hblank n))
      rw [if_pos rfl, hidle, hscanner, hday]
      simp [withoutLines, hgone]
    | false =>
      rw [if_neg Bool.false_ne_true, withoutLines_of_kept _ (hkept hn)]

end Scanner

/-- **Rejected lines leave no trace.**  If some of the rejected lines of a log are replaced by blank
    lines, each line, and the end of the log, gives the day that it gave, and raises what it raised
    except for the findings at the replaced lines. -/
theorem ScanSetup.trace_blankOut {setup : ScanSetup} {lines : List String} {chosen : Nat → Bool}
    {blank : Nat → String} (hchosen : ∀ k, chosen k = true → setup.Rejects lines k)
    (hblank : ∀ k, trimmed (blank k) = "") :
    setup.trace (blankOut chosen blank 1 lines) =
      (setup.trace lines).map (withoutLines chosen) := by
  -- the date line of an open day is none of the chosen lines
  have hopen : ∀ before after block, lines = before ++ after →
      (({} : Scanner).steps setup 1 before).1.phase = .inDay block →
      chosen block.line = false := by
    intro before after block hlines hphase
    rcases Scanner.exists_date_line_of_inDay hphase with
      ⟨earlier, hearlier, -⟩ | ⟨first, raw, rest, rfl, hline, hdate⟩
    · cases hearlier
    · cases hk : chosen block.line with
      | false => rfl
      | true =>
        have hcut : lines = first ++ raw :: (rest ++ after) := by simpa using hlines
        have hidles := (hchosen _ hk).idles hcut hline
        rw [hidles.isDate] at hdate
        cases hdate
  apply Scanner.trace_blankOut_of_agrees hblank
  · intro before raw after hlines
    constructor
    · intro hk
      exact (hchosen _ hk).idles hlines rfl
    · intro hk d hd
      rcases Scanner.line_of_mem_step hd with hline | ⟨block, hphase, hline⟩
      · rw [hline]
        exact hk
      · rw [hline]
        exact hopen before (raw :: after) block hlines hphase
  · intro d hd
    obtain ⟨-, block, hphase, hline⟩ := Scanner.mem_finish hd
    rw [hline]
    exact hopen lines [] block (by simp) hphase

/-- A stray line, a status that is none, a time that is none and a header of a repeated day are
    taken out; the free text of the first day stays, and is reported as before. -/
theorem ScanSetup.trace_blankOut_two_days :
    let setup : ScanSetup := { table := {}, fallbackYear := 2020, file := "log.txt" }
    let lines := ["stray", "2025_01_15", "Status:2", "0700wake", "2561 x", "free text", "0800 y",
      "01_15", "Sex:1", "01_16", "Status:1", "0900 z"]
    let chosen := fun n : Nat => decide (n ∈ [1, 3, 5, 9])
    let blank := fun _ : Nat => "  "
    (∀ k, chosen k = true → setup.Rejects lines k) ∧
      (∀ k, trimmed (blank k) = "") ∧
      (setup.scan (blankOut chosen blank 1 lines)).1.map (·.log.line) = [2, 10] ∧
      (setup.scan lines).2.map (·.line) = [1, 3, 5, 6, 7, 2, 8, 12, 10, 10] ∧
      setup.trace (blankOut chosen blank 1 lines) =
        (setup.trace lines).map (withoutLines chosen) := by
  intro setup lines chosen blank
  have hunusable : ∀ k ∈ [1, 3, 5],
      ∃ d ∈ (setup.scan lines).2, d.code ∈ Scanner.unusableCodes ∧ d.line = k := by
    decide +kernel
  have hpassed : ∃ p ∈ places (logLines setup.table 1 lines), p.line.isDate = true ∧
      p.opening? setup.fallbackYear = none ∧ ∃ l ∈ p.block, l.number = 9 := by
    decide +kernel
  have hchosen : ∀ k, chosen k = true → setup.Rejects lines k := by
    intro k hk
    have hk : k ∈ [1, 3, 5] ++ [9] := of_decide_eq_true hk
    rcases List.mem_append.mp hk with hk | hk
    · obtain ⟨d, found, code, line⟩ := hunusable k hk
      exact .unusable d found code line
    · obtain rfl := List.mem_singleton.mp hk
      obtain ⟨p, place, isDate, begins, l, mem, line⟩ := hpassed
      exact .passedOver p place isDate begins l mem line
  have hblank : ∀ k, trimmed (blank k) = "" := by
    intro k
    decide +kernel
  refine ⟨hchosen, hblank, ?days, ?findings, ScanSetup.trace_blankOut hchosen hblank⟩
  case days => decide +kernel
  case findings => decide +kernel

end Daybook
