/-
  Daybook/Proofs/Scan/LineFindings.lean
  =====================================
  **What one line raises.**  The lines fed to a scanner say where it stands: before
  the first date line, in the day that the last date line opened, or passing over
  lines because that date line opened none (`Reached.phase_eq`).  So they also say
  what the next line raises: what is missing in the day that it ends, and at most
  one finding about the line itself (`Reached.lineFindings`).
-/
import Daybook.Proofs.Line.Kinds
import Daybook.Proofs.Scan.Headers

namespace Daybook

open Daybook.Text

/-! ### The last date line -/

/-- The place of the last date line. -/
def lastDate? (done : List LogLine) : Option Place :=
  ((places done).filter fun p => p.line.isDate).getLast?

/-- The day that lines leave open: that of the last date line, if it opens one. -/
def openDay? (fallback : Int) (done : List LogLine) : Option Opening :=
  (lastDate? done).bind (Place.opening? fallback)

namespace Place

/-- A place with one more line behind it. -/
def followedBy (p : Place) (l : LogLine) : Place := { p with after := p.after ++ [l] }

theorem opening?_followedBy (fallback : Int) (p : Place) (l : LogLine) :
    (p.followedBy l).opening? fallback =
      (p.opening? fallback).map fun o => { o with place := o.place.followedBy l } := by
  have hdate : (p.followedBy l).date? fallback = p.date? fallback := rfl
  rw [opening?, opening?, hdate]
  cases p.date? fallback with
  | none => rfl
  | some date =>
    by_cases hnamed : date ∈ namedDates fallback p.before
    · simp [followedBy, hnamed]
    · simp [followedBy, hnamed]

end Place

theorem places_concat (done : List LogLine) (l : LogLine) :
    places (done ++ [l]) = (places done).map (·.followedBy l) ++ [⟨done, l, []⟩] :=
  placesFrom_append [] done [l]

theorem lastDate?_concat_of_date (done : List LogLine) {l : LogLine} (hl : l.isDate = true) :
    lastDate? (done ++ [l]) = some ⟨done, l, []⟩ := by
  simp [lastDate?, places_concat, hl]

theorem lastDate?_concat_of_not_date (done : List LogLine) {l : LogLine} (hl : l.isDate = false) :
    lastDate? (done ++ [l]) = (lastDate? done).map (·.followedBy l) := by
  have hsame : (fun p : Place => p.line.isDate) ∘ (fun p : Place => p.followedBy l) =
      fun p => p.line.isDate := rfl
  simp [lastDate?, places_concat, hl, List.filter_map, hsame]

theorem lastDate?_eq_none_iff {done : List LogLine} :
    lastDate? done = none ↔ ∀ l ∈ done, l.isDate = false := by
  induction done using List.reverseRecOn with
  | nil => simp [lastDate?, places, placesFrom]
  | append_singleton done l ih =>
    cases hl : l.isDate with
    | true => simp [lastDate?_concat_of_date done hl, hl]
    | false => simp [lastDate?_concat_of_not_date done hl, ih, hl, or_imp, forall_and]

theorem lastDate?_eq_some_iff {done : List LogLine} {p : Place} :
    lastDate? done = some p ↔
      p ∈ places done ∧ p.line.isDate = true ∧ ∀ l ∈ p.after, l.isDate = false := by
  induction done using List.reverseRecOn generalizing p with
  | nil => simp [lastDate?, places, placesFrom]
  | append_singleton done l ih =>
    rw [places_concat, List.mem_append, List.mem_map, List.mem_singleton]
    cases hl : l.isDate with
    | true =>
      rw [lastDate?_concat_of_date done hl]
      constructor
      · rintro ⟨⟩
        exact ⟨.inr rfl, hl, by simp⟩
      · rintro ⟨⟨q, -, rfl⟩ | rfl, -, hafter⟩
        · -- the line itself is a date line behind the place
          have hlast := hafter l (by simp [Place.followedBy])
          rw [hl] at hlast
          cases hlast
        · rfl
    | false =>
      rw [lastDate?_concat_of_not_date done hl]
      constructor
      · intro h
        obtain ⟨q, hq, rfl⟩ := Option.map_eq_some_iff.mp h
        obtain ⟨hmem, hdate, hafter⟩ := ih.mp hq
        refine ⟨.inl ⟨q, hmem, rfl⟩, hdate, ?_⟩
        intro m hm
        rcases List.mem_append.mp hm with hm | hm
        · exact hafter m hm
        · rw [List.mem_singleton.mp hm, hl]
      · rintro ⟨⟨q, hq, rfl⟩ | rfl, hdate, hafter⟩
        · have hlast : lastDate? done = some q :=
            ih.mpr ⟨hq, hdate, fun m hm => hafter m (List.mem_append_left _ hm)⟩
          rw [hlast, Option.map_some]
        · rw [hl] at hdate
          cases hdate

theorem Place.block_of_lastDate? {done : List LogLine} {p : Place} (h : lastDate? done = some p) :
    p.block = p.after := by
  obtain ⟨-, -, hafter⟩ := lastDate?_eq_some_iff.mp h
  apply List.takeWhile_eq_self_iff.mpr
  intro l hl
  rw [hafter l hl, Bool.not_false]

/-! ### Where a scanner stands -/

theorem Block.readAll_concat (b : Block) (setup : ScanSetup) (lines : List LogLine) (l : LogLine) :
    (b.readAll setup (lines ++ [l])).1 =
      ((b.readAll setup lines).1.readLine setup l.number l.text l.kind).1 := by
  induction lines generalizing b with
  | nil => rfl
  | cons first rest ih => exact ih _

/-- Where lines leave a scanner. -/
def ScanSetup.standing (setup : ScanSetup) (done : List LogLine) : Phase :=
  match lastDate? done with
  | none => .beforeFirstDate
  | some p =>
    match p.opening? setup.fallbackYear with
    | none => .skipping
    | some o => .inDay (o.start.readAll setup o.place.after).1

/-- What a line that is no date line does to where a scanner stands. -/
def Phase.readLine (setup : ScanSetup) (l : LogLine) : Phase → Phase
  | .beforeFirstDate => .beforeFirstDate
  | .skipping => .skipping
  | .inDay block => .inDay (block.readLine setup l.number l.text l.kind).1

theorem ScanSetup.standing_concat_of_date (setup : ScanSetup) (done : List LogLine) {l : LogLine}
    (hl : l.isDate = true) :
    setup.standing (done ++ [l]) = Place.begun setup.fallbackYear ⟨done, l, []⟩ := by
  rw [standing, lastDate?_concat_of_date done hl, Place.begun]
  dsimp only
  cases hopening : Place.opening? setup.fallbackYear ⟨done, l, []⟩ with
  | none => rfl
  | some o =>
    obtain ⟨hplace, -, -⟩ := Place.opening?_eq_some.mp hopening
    dsimp only
    rw [hplace]
    rfl

theorem ScanSetup.standing_concat_of_not_date (setup : ScanSetup) (done : List LogLine)
    {l : LogLine} (hl : l.isDate = false) :
    setup.standing (done ++ [l]) = (setup.standing done).readLine setup l := by
  rw [standing, standing, lastDate?_concat_of_not_date done hl]
  cases lastDate? done with
  | none => rfl
  | some p =>
    dsimp only [Option.map_some]
    rw [Place.opening?_followedBy]
    cases p.opening? setup.fallbackYear with
    | none => rfl
    | some o => exact congrArg Phase.inDay (o.start.readAll_concat setup o.place.after l)

namespace Scanner

variable {s : Scanner} {setup : ScanSetup} {n : Nat} {raw : String}

theorem phase_step_of_not_date (hl : (LogLine.ofRaw setup.table n raw).isDate = false) :
    (s.step setup n raw).scanner.phase =
      s.phase.readLine setup (LogLine.ofRaw setup.table n raw) := by
  cases hphase : s.phase with
  | beforeFirstDate =>
    rw [step_beforeFirstDate hphase hl]
    exact hphase
  | skipping =>
    rw [step_skipping hphase hl]
    exact hphase
  | inDay block =>
    rw [step_inDay hphase hl, Phase.readLine, LogLine.number_ofRaw, LogLine.text_ofRaw,
      LogLine.kind_ofRaw]

/-- Whether a new scanner that was fed lines stands so.  The lines may be numbered in any way. -/
inductive Reached (setup : ScanSetup) : List LogLine → Scanner → Prop
  | start : Reached setup [] {}
  | fed {done : List LogLine} {s : Scanner} : Reached setup done s → ∀ (n : Nat) (raw : String),
      Reached setup (done ++ [LogLine.ofRaw setup.table n raw]) (s.step setup n raw).scanner

variable {done : List LogLine}

theorem Reached.remembers (h : Reached setup done s) : s.Remembers setup.fallbackYear done := by
  induction h with
  | start => exact remembers_nil setup.fallbackYear
  | fed _ n raw ih => exact ih.step n raw

/-- **The lines fed to a scanner say where it stands.** -/
theorem Reached.phase_eq (h : Reached setup done s) : s.phase = setup.standing done := by
  induction h with
  | start => rfl
  | @fed done s hs n raw ih =>
    cases hl : (LogLine.ofRaw setup.table n raw).isDate with
    | false => rw [phase_step_of_not_date hl, ih, setup.standing_concat_of_not_date done hl]
    | true =>
      obtain ⟨year, month, day, hkind⟩ := LogLine.exists_of_isDate hl
      have hbegun := beginDay_spec (p := ⟨done, LogLine.ofRaw setup.table n raw, []⟩)
        hs.remembers rfl hkind
      rw [LogLine.number_ofRaw, LogLine.text_ofRaw] at hbegun
      rw [LogLine.kind_ofRaw] at hkind
      rw [setup.standing_concat_of_date done hl, step_of_date s hkind]
      exact hbegun.2.2

end Scanner

/-! ### At most one finding about a line -/

namespace Block

variable (b : Block) (setup : ScanSetup) (line : Nat) (text : String)

theorem length_readHeader_le (field : HeaderField) (value : String) (column : Nat) :
    (b.readHeader setup line text field value column).2.length ≤ 1 := by
  unfold readHeader
  split
  · exact Nat.le_refl 1
  · dsimp only
    split
    · exact Nat.le_refl 1
    · exact Nat.zero_le 1

theorem length_readActivity_le (written : WrittenActivity) :
    (b.readActivity setup line text written).2.length ≤ 1 := by
  unfold readActivity
  dsimp only
  split
  · exact Nat.zero_le 1
  · dsimp only
    split
    · exact Nat.zero_le 1
    · exact Nat.le_refl 1

theorem length_readLine_le (kind : LineKind) :
    (b.readLine setup line text kind).2.length ≤ 1 := by
  cases kind with
  | blank => exact Nat.zero_le 1
  | date year month day => exact Nat.zero_le 1
  | header field value column => exact b.length_readHeader_le setup line text field value column
  | activity written => exact b.length_readActivity_le setup line text written
  | invalid fault first last => exact Nat.le_refl 1

end Block

theorem Place.length_dateFindings_le (setup : ScanSetup) (p : Place) :
    (p.dateFindings setup).length ≤ 1 := by
  unfold dateFindings
  dsimp only
  split
  · split
    · exact Nat.le_refl 1
    · split
      · exact Nat.le_refl 1
      · split
        · exact Nat.zero_le 1
        · exact Nat.le_refl 1
  · exact Nat.zero_le 1

/-! ### What a line raises -/

theorem LogLine.isDate_of_blank {l : LogLine} (h : l.kind = .blank) : l.isDate = false := by
  rw [isDate, h]

namespace ScanSetup

/-- What is missing in the day that lines leave open. -/
def missing (setup : ScanSetup) (done : List LogLine) : List Diagnostic :=
  match openDay? setup.fallbackYear done with
  | none => []
  | some o => (o.closed setup).2

/-- What is missing in the day that a line ends; only a date line ends one. -/
def missedAt (setup : ScanSetup) (done : List LogLine) (l : LogLine) : List Diagnostic :=
  if l.isDate then setup.missing done else []

/-- What a line raises about itself. -/
def ownFindings (setup : ScanSetup) (done : List LogLine) (l : LogLine) : List Diagnostic :=
  if l.isDate then Place.dateFindings setup ⟨done, l, []⟩
  else
    match setup.standing done with
    | .beforeFirstDate => strayFindings setup [l]
    | .skipping => []
    | .inDay block => (block.readLine setup l.number l.text l.kind).2

variable {setup : ScanSetup} {done : List LogLine} {l : LogLine} {d : Diagnostic}

theorem code_line_of_mem_missing {o : Opening} (hd : d ∈ (o.closed setup).2) :
    d.code = .missingHeader ∧ d.line = o.place.line.number := by
  rw [o.missing_closed setup] at hd
  obtain ⟨field, -, rfl⟩ := List.mem_map.mp hd
  exact ⟨rfl, o.line_read setup⟩

theorem length_ownFindings_le (setup : ScanSetup) (done : List LogLine) (l : LogLine) :
    (setup.ownFindings done l).length ≤ 1 := by
  unfold ownFindings
  split
  · exact Place.length_dateFindings_le setup _
  · split
    · by_cases hkind : l.kind = .blank
      · simp [strayFindings, hkind]
      · simp [strayFindings, hkind]
    · exact Nat.zero_le 1
    · exact Block.length_readLine_le _ setup l.number l.text l.kind

theorem findsAt_of_mem_ownFindings (hd : d ∈ setup.ownFindings done l) :
    setup.FindsAt l d ∧ d.code ≠ .missingHeader := by
  unfold ownFindings at hd
  split at hd
  · have hne : ∀ code ∈ dateCodes, code ≠ .missingHeader := by decide
    exact ⟨findsAt_of_mem_dateFindings hd, hne _ (code_of_mem_dateFindings hd)⟩
  · split at hd
    · obtain ⟨m, hm, hfinds⟩ := findsAt_of_mem_strayFindings hd
      obtain rfl := List.mem_singleton.mp hm
      refine ⟨hfinds, ?_⟩
      rw [code_of_mem_strayFindings hd]
      decide
    · cases hd
    · have hne : ∀ code ∈ dayLineCodes, code ≠ .missingHeader := by decide
      exact ⟨Block.findsAt_of_mem_readLine hd, hne _ (Block.code_of_mem_readLine hd)⟩

theorem ownFindings_of_blank (hkind : l.kind = .blank) : setup.ownFindings done l = [] := by
  rw [ownFindings, LogLine.isDate_of_blank hkind, if_neg Bool.false_ne_true]
  split
  · simp [strayFindings, hkind]
  · rfl
  · rw [hkind]
    rfl

theorem ownFindings_of_passedOver {p : Place} (hl : l.isDate = false) (hp : p ∈ places done)
    (hdate : p.line.isDate = true) (hopens : p.opening? setup.fallbackYear = none)
    (hafter : ∀ m ∈ p.after, m.isDate = false) : setup.ownFindings done l = [] := by
  have hlast : lastDate? done = some p := lastDate?_eq_some_iff.mpr ⟨hp, hdate, hafter⟩
  have hstanding : setup.standing done = .skipping := by
    rw [standing, hlast]
    dsimp only
    rw [hopens]
  rw [ownFindings, hl, if_neg Bool.false_ne_true, hstanding]

theorem exists_noDateAtStart_iff (hkind : l.kind ≠ .blank) (hl : l.isDate = false) :
    (∃ d ∈ setup.ownFindings done l, d.code = .noDateAtStart) ↔
      ∀ m ∈ done, m.isDate = false := by
  rw [← lastDate?_eq_none_iff, ownFindings, hl, if_neg Bool.false_ne_true, standing]
  cases lastDate? done with
  | none =>
    simp [strayFindings, hkind]
  | some p =>
    dsimp only
    refine iff_of_false ?_ (Option.some_ne_none p)
    rintro ⟨d, hd, hcode⟩
    cases hopens : p.opening? setup.fallbackYear with
    | none =>
      rw [hopens] at hd
      cases hd
    | some o =>
      rw [hopens] at hd
      have hday := Block.code_of_mem_readLine hd
      rw [hcode] at hday
      exact absurd hday (by decide)

end ScanSetup

namespace Scanner

variable {s : Scanner} {setup : ScanSetup} {done : List LogLine}

theorem Reached.finish_eq (h : Reached setup done s) :
    (s.finish setup).2 = setup.missing done := by
  rw [finish, h.phase_eq, ScanSetup.standing, ScanSetup.missing, openDay?]
  cases hlast : lastDate? done with
  | none => rfl
  | some p =>
    dsimp only [Option.bind_some]
    cases hopens : p.opening? setup.fallbackYear with
    | none => rfl
    | some o =>
      obtain ⟨rfl, -, -⟩ := Place.opening?_eq_some.mp hopens
      dsimp only
      rw [Opening.closed, Place.block_of_lastDate? hlast]

/-- **What one line raises**, as it and the lines before it say. -/
theorem Reached.findings_step (h : Reached setup done s) (n : Nat) (raw : String) :
    let l := LogLine.ofRaw setup.table n raw
    (s.step setup n raw).findings = setup.missedAt done l ++ setup.ownFindings done l := by
  intro l
  rw [ScanSetup.missedAt, ScanSetup.ownFindings]
  cases hl : l.isDate with
  | true =>
    obtain ⟨year, month, day, hkind⟩ := LogLine.exists_of_isDate hl
    have hbegun := beginDay_spec (p := ⟨done, l, []⟩) h.remembers rfl hkind
    rw [LogLine.number_ofRaw, LogLine.text_ofRaw] at hbegun
    rw [LogLine.kind_ofRaw] at hkind
    rw [if_pos rfl, if_pos rfl, step_of_date s hkind, ← h.finish_eq, ← hbegun.1]
  | false =>
    rw [if_neg Bool.false_ne_true, if_neg Bool.false_ne_true, List.nil_append, ← h.phase_eq]
    cases hphase : s.phase with
    | beforeFirstDate => rw [step_beforeFirstDate hphase hl]
    | skipping => rw [step_skipping hphase hl]
    | inDay block =>
      rw [step_inDay hphase hl, LogLine.number_ofRaw, LogLine.text_ofRaw, LogLine.kind_ofRaw]

end Scanner

/-- Whether a finding is filed under a line and points at that line only, which it quotes. -/
structure Diagnostic.IsAbout (d : Diagnostic) (file : String) (l : LogLine) : Prop where
  line : d.line = l.number
  span : ∃ span, d.span = some span ∧ span.file = file ∧ span.lineStart = l.number ∧
    span.lineEnd = l.number ∧ span.rawText = some l.text

theorem ScanSetup.FindsAt.isAbout {setup : ScanSetup} {l : LogLine} {d : Diagnostic}
    (h : setup.FindsAt l d) : d.IsAbout setup.file l :=
  ⟨h.raisesAt.line_eq, h.raisesAt.span⟩

/-- What a line may raise after the lines before it. -/
structure LineFindings (setup : ScanSetup) (done : List LogLine) (l : LogLine)
    (findings : List Diagnostic) : Prop where
  /-- What is missing in the day that the line ends, and then at most one finding about the line. -/
  parts : ∃ own, findings = setup.missedAt done l ++ own ∧ own.length ≤ 1 ∧
    ∀ d ∈ own, d.code ≠ .missingHeader ∧ d.IsAbout setup.file l
  missing : ∀ o, openDay? setup.fallbackYear done = some o →
    ∀ d ∈ (o.closed setup).2, d.code = .missingHeader ∧ d.line = o.place.line.number
  blank : l.text = "" → findings = []
  /-- Behind a date line that opens no day, up to the next one. -/
  passedOver : l.isDate = false → ∀ p ∈ places done, p.line.isDate = true →
    p.opening? setup.fallbackYear = none → (∀ m ∈ p.after, m.isDate = false) → findings = []
  stray : l.text ≠ "" → l.isDate = false →
    ((∃ d ∈ findings, d.code = .noDateAtStart) ↔ ∀ m ∈ done, m.isDate = false)

/-- **What one line raises, wherever a scanner stands.**  The lines fed so far, in any numbering,
    say where it stands.  A date line that ends a day raises first what is missing in that day, at
    the date line of the day.  Any line then raises at most one finding about itself: none if it is
    blank or passed over behind a date line that opened no day, and content before the first date
    line just where no date line was fed before it. -/
theorem Scanner.Reached.lineFindings {setup : ScanSetup} {done : List LogLine} {s : Scanner}
    (h : Reached setup done s) (n : Nat) (raw : String) :
    s.phase = setup.standing done ∧
      LineFindings setup done (LogLine.ofRaw setup.table n raw) (s.step setup n raw).findings := by
  refine ⟨h.phase_eq, ?_⟩
  have hkind : (LogLine.ofRaw setup.table n raw).kind = .blank ↔
      (LogLine.ofRaw setup.table n raw).text = "" := by
    rw [LogLine.kind_ofRaw, LogLine.text_ofRaw]
    exact classify_eq_blank_iff
  rw [h.findings_step n raw]
  generalize LogLine.ofRaw setup.table n raw = l at hkind
  have hmissed (hl : l.isDate = false) : setup.missedAt done l = [] := by
    rw [ScanSetup.missedAt, hl, if_neg Bool.false_ne_true]
  constructor
  case parts =>
    refine ⟨_, rfl, setup.length_ownFindings_le done l, ?_⟩
    intro d hd
    obtain ⟨hfinds, hcode⟩ := ScanSetup.findsAt_of_mem_ownFindings hd
    exact ⟨hcode, hfinds.isAbout⟩
  case missing => exact fun o _ d hd => ScanSetup.code_line_of_mem_missing hd
  case blank =>
    intro htext
    have hblank := hkind.mpr htext
    rw [hmissed (LogLine.isDate_of_blank hblank), ScanSetup.ownFindings_of_blank hblank,
      List.append_nil]
  case passedOver =>
    intro hl p hp hdate hopens hafter
    rw [hmissed hl, ScanSetup.ownFindings_of_passedOver hl hp hdate hopens hafter, List.append_nil]
  case stray =>
    intro htext hl
    have hne : l.kind ≠ .blank := fun hblank => htext (hkind.mp hblank)
    rw [hmissed hl, List.nil_append]
    exact ScanSetup.exists_noDateAtStart_iff hne hl

/-- Lines numbered in no order: a day without a getup time, a date that does not exist, and a line
    behind it. -/
theorem Scanner.Reached.lineFindings_rejected_date :
    let setup : ScanSetup := {
      table := { headerOrder := [.status, .getup] }, fallbackYear := 2025, file := "log.txt" }
    let fed : List (Nat × String) := [(7, "2025_01_15"), (7, " Status:1")]
    let reached := fed.foldl (fun s line => (s.step setup line.1 line.2).scanner) ({} : Scanner)
    let done := fed.map fun line => LogLine.ofRaw setup.table line.1 line.2
    let rejected := reached.step setup 3 " 02_30"
    let date := LogLine.ofRaw setup.table 3 " 02_30"
    Reached setup done reached ∧ reached.phase = setup.standing done ∧
      LineFindings setup done date rejected.findings ∧
      rejected.findings.map (fun d => (d.code, d.line)) =
        [(.missingHeader, 7), (.invalidDate, 3)] ∧
      LineFindings setup (done ++ [date]) (LogLine.ofRaw setup.table 9 "0900 read")
        (rejected.scanner.step setup 9 "0900 read").findings ∧
      (rejected.scanner.step setup 9 "0900 read").findings = [] := by
  intro setup fed reached done rejected date
  have hreached : Reached setup done reached := .fed (.fed .start 7 "2025_01_15") 7 " Status:1"
  obtain ⟨hphase, hrejected⟩ := hreached.lineFindings 3 " 02_30"
  obtain ⟨-, hpassed⟩ := (hreached.fed 3 " 02_30").lineFindings 9 "0900 read"
  exact ⟨hreached, hphase, hrejected, by decide +kernel, hpassed, by decide +kernel⟩

end Daybook
