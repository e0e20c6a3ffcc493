/-
  Daybook/Proofs/Scan/Unfinished.lean
  ===================================
  **A scan that is not ended.**  When reading stops between two lines, the days that
  a later date line has closed are found whole, with the headers they miss; of the
  day still open only its lines have been read (`Block.raised`).  What has been
  raised up to there is what the places of the lines say (`findings_steps`).
-/
import Daybook.Proofs.Scan.Steps
import Daybook.Proofs.Scan.Findings

namespace Daybook

open Daybook.Text

/-! ### What has been raised -/

/-- What the lines after a point in a day raise: those up to the next date line, and the end of the
    day if there is one. -/
def Block.raised (b : Block) (setup : ScanSetup) (lines : List LogLine) : List Diagnostic :=
  let own := lines.takeWhile fun l => !l.isDate
  if lines.any LogLine.isDate then (b.readOut setup own).2 else (b.readAll setup own).2

/-- What lines raise up to the first date line among them, and at it. -/
def Phase.raised (setup : ScanSetup) (lines : List LogLine) : Phase → List Diagnostic
  | .beforeFirstDate => strayFindings setup (lines.takeWhile fun l => !l.isDate)
  | .inDay block => block.raised setup lines
  | .skipping => []

/-- What a day has raised by the end of the lines. -/
def Opening.raised (setup : ScanSetup) (o : Opening) : List Diagnostic :=
  o.start.raised setup o.place.after

/-- Whether a date line follows, at which the day ends. -/
def Opening.isClosed (o : Opening) : Bool := o.place.after.any LogLine.isDate

/-- What a date line and the day that it opens have raised by the end of the lines. -/
def Place.raised (setup : ScanSetup) (p : Place) : List Diagnostic :=
  p.dateFindings setup ++
    match p.opening? setup.fallbackYear with
    | none => []
    | some o => o.raised setup

theorem Place.raised_of_not_date (setup : ScanSetup) {p : Place} (h : p.line.isDate = false) :
    p.raised setup = [] := by
  have hfindings := p.findings_of_not_date setup h
  have hopening := p.opening?_of_not_date setup.fallbackYear h
  unfold findings at hfindings
  unfold raised
  rw [hopening] at hfindings ⊢
  exact hfindings

namespace Scanner

variable {s : Scanner} {setup : ScanSetup}

theorem raised_of_date {l : LogLine} (hl : l.isDate = true) (rest : List LogLine) :
    s.phase.raised setup (l :: rest) = (s.finish setup).2 := by
  have hopen := congrArg Prod.snd (s.readOut_nil setup)
  rw [← hopen]
  cases s.phase <;> simp [Phase.raised, Block.raised, Phase.readOut, hl]

theorem raised_of_not_date (s : Scanner) (setup : ScanSetup) (n : Nat) (raw : String)
    (hl : (LogLine.ofRaw setup.table n raw).isDate = false) (rest : List LogLine) :
    s.phase.raised setup (LogLine.ofRaw setup.table n raw :: rest) =
      (s.step setup n raw).findings ++ (s.step setup n raw).scanner.phase.raised setup rest := by
  cases hphase : s.phase with
  | beforeFirstDate =>
    rw [step_beforeFirstDate hphase hl]
    simp [Phase.raised, hphase, hl, strayFindings]
  | skipping =>
    rw [step_skipping hphase hl]
    simp [Phase.raised, hphase]
  | inDay block =>
    rw [step_inDay hphase hl]
    simp only [Phase.raised, Block.raised, List.any_cons, hl, Bool.false_or, List.takeWhile_cons,
      Bool.not_false, if_true]
    split <;> simp [Block.readOut, Block.readAll]

/-- The day that a place opens, if any, raises what follows on its date line. -/
theorem raised_eq (setup : ScanSetup) (p : Place) :
    p.raised setup =
      p.dateFindings setup ++ (p.begun setup.fallbackYear).raised setup p.after := by
  unfold Place.raised Place.begun
  cases ho : p.opening? setup.fallbackYear with
  | none => rfl
  | some o =>
    obtain ⟨hplace, -, -⟩ := Place.opening?_eq_some.mp ho
    rw [← hplace]
    rfl

/-- **What lines have raised.**  From any point on, that is what they raise up to the first date
    line, and what each of their places does by the end of the lines. -/
theorem findings_steps {done : List LogLine} (h : s.Remembers setup.fallbackYear done) (n : Nat)
    (lines : List String) :
    let log := logLines setup.table n lines
    (s.steps setup n lines).2.2 =
      s.phase.raised setup log ++ (placesFrom done log).flatMap (Place.raised setup) := by
  induction lines generalizing s done n with
  | nil =>
    cases s.phase <;>
      simp [steps, logLines, placesFrom, Phase.raised, Block.raised, strayFindings, Block.readAll]
  | cons raw rest ih =>
    have hrest := ih (h.step n raw) (n + 1)
    have hother := raised_of_not_date s setup n raw
    have hkinds := LogLine.kind_ofRaw setup.table n raw
    have hnumber := LogLine.number_ofRaw setup.table n raw
    have htext := LogLine.text_ofRaw setup.table n raw
    rw [steps_cons]
    simp only [logLines, placesFrom, List.flatMap_cons, hrest]
    generalize LogLine.ofRaw setup.table n raw = l at *
    generalize logLines setup.table (n + 1) rest = log at *
    cases hl : l.isDate with
    | false =>
      have hplace : Place.raised setup ⟨done, l, log⟩ = [] := Place.raised_of_not_date setup hl
      rw [hother hl, hplace, List.nil_append, List.append_assoc]
    | true =>
      obtain ⟨year, month, day, hkind⟩ := LogLine.exists_of_isDate hl
      -- the date line stands between what has been read and the rest of the lines
      obtain ⟨hfindings, -, hphase⟩ := beginDay_spec (p := ⟨done, l, log⟩) h rfl hkind
      simp only [hnumber, htext] at hfindings hphase
      rw [raised_of_date hl, step_of_date s (hkinds.symm.trans hkind), raised_eq, ← hphase]
      simp only [hfindings, List.append_assoc]

end Scanner

/-- **What lines have raised from the beginning of a log.** -/
theorem findings_steps_start (setup : ScanSetup) (lines : List String) :
    let log := logLines setup.table 1 lines
    (({} : Scanner).steps setup 1 lines).2.2 =
      strayFindings setup (log.takeWhile fun l => !l.isDate) ++
        (places log).flatMap (Place.raised setup) :=
  Scanner.findings_steps (Scanner.remembers_nil setup.fallbackYear) 1 lines

/-! ### What it is about -/

/-- Headers are missed in the days that are closed, and in no other. -/
theorem missingHeader_raised (setup : ScanSetup) (o : Opening) :
    withCode .missingHeader (o.raised setup) =
      if o.isClosed then withCode .missingHeader (o.read setup).2 else [] := by
  unfold Opening.raised Block.raised Opening.isClosed
  split
  next => rfl
  next => exact withCode_eq_nil_of_notMem (by decide) fun d hd => Block.code_of_mem_readAll hd

theorem missingHeader_steps (setup : ScanSetup) (lines : List String) :
    withCode .missingHeader (({} : Scanner).steps setup 1 lines).2.2 =
      ((setup.openings lines).filter Opening.isClosed).flatMap fun o =>
        withCode .missingHeader (o.read setup).2 := by
  have hstray (log : List LogLine) : withCode .missingHeader (strayFindings setup log) = [] := by
    apply withCode_eq_nil
    intro d hd
    rw [code_of_mem_strayFindings hd]
    decide
  have hplace (p : Place) : withCode .missingHeader (p.raised setup) =
      (p.opening? setup.fallbackYear).toList.flatMap fun o =>
        withCode .missingHeader (o.raised setup) := by
    have hdates : withCode .missingHeader (p.dateFindings setup) = [] :=
      withCode_eq_nil_of_notMem (by decide) fun d hd => code_of_mem_dateFindings hd
    rw [Place.raised, withCode_append, hdates, List.nil_append]
    cases p.opening? setup.fallbackYear <;> simp
  rw [findings_steps_start, withCode_append, hstray, List.nil_append, withCode_flatMap]
  simp only [hplace]
  unfold places
  rw [flatMap_opening?]
  simp only [missingHeader_raised]
  exact flatMap_ite_nil _ _ _

theorem isLogical_of_mem_steps {setup : ScanSetup} {lines : List String} {d : Diagnostic}
    (hd : d ∈ (({} : Scanner).steps setup 1 lines).2.2) : d.isLogical = false := by
  -- the whole scan goes on from there
  have hscan : d ∈ (setup.scan lines).2 := List.mem_append_left _ hd
  exact isLogical_of_mem_scan hscan

end Daybook
