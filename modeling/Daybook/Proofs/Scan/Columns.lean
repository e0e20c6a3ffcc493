/-
  Daybook/Proofs/Scan/Columns.lean
  ================================
  **Findings point into the text that they quote.**  The columns of a finding, in
  characters of the trimmed line, are columns of the line; only a header without a
  value is reported right behind it.  What is found at a line follows from its
  kind (`FindsAt`), and where the parts of a line stand from what it is read as.
  So the columns of an unrecognized activity cut its description out of the line
  (`scan_columns`).
-/
import Daybook.Proofs.Line.Kinds
import Daybook.Proofs.Scan.Activities
import Daybook.Proofs.Scan.Dates
import Daybook.Proofs.Scan.Spans

namespace Daybook

open Daybook.Text

/-! ### Columns of a text -/

namespace Span

/-- Whether the columns of a span, counted in characters from 1, are columns of a text. -/
structure LiesIn (s : Span) (text : String) : Prop where
  start : 1 ≤ s.columnStart
  order : s.columnStart ≤ s.columnEnd
  stop : s.columnEnd ≤ text.length

/-- Whether a span points at the one column right behind a text. -/
structure StandsBehind (s : Span) (text : String) : Prop where
  start : s.columnStart = text.length + 1
  stop : s.columnEnd = text.length + 1

/-- The characters of a text at the columns of a span. -/
def excerpt (s : Span) (text : String) : String :=
  String.ofList ((text.toList.drop (s.columnStart - 1)).take (s.columnEnd + 1 - s.columnStart))

theorem liesIn_ofLine (file : String) (line : Nat) {text : String} (h : text ≠ "") :
    (ofLine file line text).LiesIn text := by
  have hpos : 0 < text.toList.length := by
    rw [List.length_pos_iff]
    simpa using h
  have hlength := String.length_toList (s := text)
  exact ⟨Nat.le_refl 1, Nat.le_max_right _ 1, by simp only [ofLine]; omega⟩

section

variable {s : Span} {text : String} {front part back : List Char}

/-- A span at the columns of a part of a text lies in the text. -/
theorem liesIn_of_append (htext : text.toList = front ++ (part ++ back)) (hpart : part ≠ [])
    (hstart : s.columnStart = front.length + 1)
    (hend : s.columnEnd = s.columnStart + (part.length - 1)) : s.LiesIn text := by
  have hpos := List.length_pos_iff.mpr hpart
  have hlength : text.length = front.length + (part.length + back.length) := by
    rw [← String.length_toList, htext, List.length_append, List.length_append]
  constructor <;> omega

/-- It cuts out the part. -/
theorem excerpt_of_append (htext : text.toList = front ++ (part ++ back)) (hpart : part ≠ [])
    (hstart : s.columnStart = front.length + 1)
    (hend : s.columnEnd = s.columnStart + (part.length - 1)) :
    s.excerpt text = String.ofList part := by
  have hpos := List.length_pos_iff.mpr hpart
  have hwidth : s.columnEnd + 1 - s.columnStart = part.length := by omega
  rw [excerpt, hwidth, hstart, Nat.add_sub_cancel, htext, List.drop_left, List.take_left]

end

end Span

/-! ### What is found at a line -/

/-- Whether a finding about a line is that a header has an empty value, which its field does not
    accept. -/
def Diagnostic.LacksValue (d : Diagnostic) (l : LogLine) : Prop :=
  d.code = .invalidLineFormat ∧ ∃ field column, l.kind = .header field "" column

/-- Whether a finding about a line points where it should with a span that quotes the line. -/
structure Diagnostic.PointsInto (d : Diagnostic) (l : LogLine) (span : Span) : Prop where
  isSpan : d.span = some span
  rawText : span.rawText = some l.text
  lies : ¬d.LacksValue l → span.LiesIn l.text
  behind : d.LacksValue l → span.StandsBehind l.text
  excerpt : ∀ written, l.kind = .activity written → d.code = .unrecognizedActivity →
    span.excerpt l.text = written.description

section

variable {setup : ScanSetup} {l : LogLine} {message : String}

theorem pointsInto_of_whole {code : Code} (hread : l.IsRead setup.table) (hkind : l.kind ≠ .blank)
    (hcode : code ∉ columnCodes) :
    (setup.finding code l.number l.text none message).PointsInto l
      (.ofLine setup.file l.number l.text) := by
  have htext : l.text ≠ "" := by
    intro hempty
    exact hkind (hread.trans (classify_eq_blank_iff.mpr hempty))
  refine ⟨rfl, rfl, fun _ => Span.liesIn_ofLine _ _ htext, ?_, ?_⟩
  · rintro ⟨rfl, -⟩
    exact absurd (by decide) hcode
  · rintro written - rfl
    exact absurd (by decide) hcode

theorem pointsInto_of_badValue {field : HeaderField} {value : String} {column : Nat}
    (hread : l.IsRead setup.table) (htrim : trim l.text.toList = l.text.toList)
    (hkind : l.kind = .header field value column) :
    (setup.finding .invalidLineFormat l.number l.text (some (column, max l.text.length column))
      message).PointsInto l
        ((Span.ofLine setup.file l.number l.text).withColumns column
          (max l.text.length column)) := by
  obtain ⟨hstart, hlies, hbehind⟩ := column_of_header htrim (hread.symm.trans hkind)
  refine ⟨rfl, rfl, ?_, ?_, ?_⟩
  · intro hvalue
    have hne : value ≠ "" := by
      rintro rfl
      exact hvalue ⟨rfl, field, column, hkind⟩
    exact ⟨hstart, Nat.le_max_right _ _, Nat.max_le.mpr ⟨Nat.le_refl _, hlies hne⟩⟩
  · rintro ⟨-, other, place, hother⟩
    rw [hkind] at hother
    injection hother with _ hempty
    have hcolumn := hbehind hempty
    exact ⟨hcolumn, (Nat.max_eq_right (by omega)).trans hcolumn⟩
  · intro written hactivity
    rw [hkind] at hactivity
    cases hactivity

theorem pointsInto_of_invalid {fault : LineFault} {first last : Nat}
    (hread : l.IsRead setup.table) (hkind : l.kind = .invalid fault first last) :
    (setup.finding .invalidLineFormat l.number l.text (some (first, last)) message).PointsInto l
      ((Span.ofLine setup.file l.number l.text).withColumns first last) := by
  obtain ⟨hstart, horder, hstop⟩ := columns_of_invalid (hread.symm.trans hkind)
  refine ⟨rfl, rfl, fun _ => ⟨hstart, horder, hstop⟩, ?_, ?_⟩
  · rintro ⟨-, field, column, hheader⟩
    rw [hkind] at hheader
    cases hheader
  · intro written hactivity
    rw [hkind] at hactivity
    cases hactivity

theorem pointsInto_of_unrecognized {b : Block} {written : WrittenActivity}
    (hread : l.IsRead setup.table) (hkind : l.kind = .activity written) :
    (b.unrecognized setup l.number l.text written).PointsInto l
      ((Span.ofLine setup.file l.number l.text).withColumns written.column
        (written.column + (written.description.length - 1))) := by
  obtain ⟨hne, front, back, htext, hcolumn⟩ :=
    exists_append_of_activity (hread.symm.trans hkind)
  have hend : written.column + (written.description.length - 1) =
      written.column + (written.description.toList.length - 1) := by
    rw [String.length_toList]
  refine ⟨rfl, rfl, fun _ => Span.liesIn_of_append htext hne hcolumn hend, ?_, ?_⟩
  · rintro ⟨hcode, -⟩
    cases hcode
  · intro other hother _
    rw [hkind] at hother
    cases hother
    exact (Span.excerpt_of_append htext hne hcolumn hend).trans String.ofList_toList

/-- **What is found at a line points into its text.** -/
theorem ScanSetup.FindsAt.exists_pointsInto {d : Diagnostic} {n : Nat} {raw : String}
    (h : setup.FindsAt (LogLine.ofRaw setup.table n raw) d) :
    ∃ span, d.PointsInto (LogLine.ofRaw setup.table n raw) span := by
  have hread := LogLine.isRead_ofRaw setup.table n raw
  have htrim : trim (LogLine.ofRaw setup.table n raw).text.toList =
      (LogLine.ofRaw setup.table n raw).text.toList := by
    rw [LogLine.text_ofRaw, trimmed, String.toList_ofList, trim_trim]
  cases h with
  | whole hkind hcode => exact ⟨_, pointsInto_of_whole hread hkind hcode⟩
  | badValue hkind => exact ⟨_, pointsInto_of_badValue hread htrim hkind⟩
  | invalid hkind => exact ⟨_, pointsInto_of_invalid hread hkind⟩
  | unrecognized hkind => exact ⟨_, pointsInto_of_unrecognized hread hkind⟩

end

/-! ### A whole scan -/

section

variable {setup : ScanSetup} {lines : List String}

theorem exists_line_of_mem_activities_scan {day : ScannedDay} (hday : day ∈ (setup.scan lines).1)
    {a : Activity} (ha : a ∈ day.log.activities) :
    ∃ l ∈ logLines setup.table 1 lines, ∃ written, l.kind = .activity written ∧
      a.line = l.number ∧ a.description = written.description := by
  rw [days_scan] at hday
  obtain ⟨o, ho, rfl⟩ := List.mem_map.mp hday
  obtain ⟨l, hl, hsaid⟩ := Opening.exists_line_of_mem_activities ho ha
  refine ⟨l, ?_, hsaid⟩
  rw [← mem_places.mp (Opening.mem_openings.mp ho).1]
  exact List.mem_append_right _ (List.mem_cons_of_mem _ hl)

/-- An activity that is reported as unrecognized is recorded. -/
theorem exists_activity_of_unrecognized {d : Diagnostic} (hd : d ∈ (setup.scan lines).2)
    (hcode : d.code = .unrecognizedActivity) :
    ∃ day ∈ (setup.scan lines).1, ∃ a ∈ day.log.activities, a.line = d.line := by
  have hline : d.line ∈ linesWith .unrecognizedActivity (setup.scan lines).2 :=
    List.mem_map_of_mem (List.mem_filter.mpr ⟨hd, by simpa using hcode⟩)
  rw [linesWith_scan_of_dayCode setup lines (by decide)] at hline
  obtain ⟨o, ho, hfound⟩ := List.mem_flatMap.mp hline
  rw [o.unrecognized_read setup] at hfound
  obtain ⟨a, ha, hsame⟩ := List.mem_map.mp hfound
  refine ⟨(o.read setup).1, ?_, a, (List.mem_filter.mp ha).1, hsame⟩
  rw [days_scan]
  exact List.mem_map_of_mem ho

end

/-- **Every finding of a scan points into the text of its line.**  The text is the line without the
    blanks at its ends, whatever characters it has.  Where a header has an empty value that its
    field does not accept, the columns stand right behind the text.  The columns of an unrecognized
    activity cut out of the text what the records of the day have as its description. -/
theorem scan_columns (setup : ScanSetup) (lines : List String) :
    ∀ d ∈ (setup.scan lines).2, ∃ l ∈ logLines setup.table 1 lines, ∃ span,
      d.line = l.number ∧ d.span = some span ∧ span.rawText = some l.text ∧
      (¬d.LacksValue l → span.LiesIn l.text) ∧ (d.LacksValue l → span.StandsBehind l.text) ∧
      (d.code = .unrecognizedActivity →
        (∃ day ∈ (setup.scan lines).1, ∃ a ∈ day.log.activities, a.line = d.line) ∧
        ∀ day ∈ (setup.scan lines).1, ∀ a ∈ day.log.activities, a.line = d.line →
          span.excerpt l.text = a.description) := by
  intro d hd
  obtain ⟨l, hl, hfinds⟩ := findsAt_of_mem_scan hd
  have hline := hfinds.raisesAt.line_eq
  obtain ⟨span, hpoints⟩ : ∃ span, d.PointsInto l span := by
    obtain ⟨n, raw, rfl⟩ := exists_ofRaw_of_mem_logLines hl
    exact hfinds.exists_pointsInto
  refine ⟨l, hl, span, hline, hpoints.isSpan, hpoints.rawText, hpoints.lies, hpoints.behind, ?_⟩
  intro hcode
  refine ⟨exists_activity_of_unrecognized hd hcode, ?_⟩
  intro day hday a ha hsame
  -- the line that the activity was read from is the line of the finding
  obtain ⟨m, hm, written, hkind, hnumber, hdescription⟩ :=
    exists_line_of_mem_activities_scan hday ha
  obtain rfl : m = l := eq_of_number_eq hm hl (by rw [← hnumber, hsame, hline])
  rw [hdescription]
  exact hpoints.excerpt written hkind hcode

/-- A getup header without a value, and a description of letters that are longer in bytes, with
    blanks around the line and a remark behind it. -/
theorem scan_columns_letters :
    let setup : ScanSetup := { table := {}, fallbackYear := 2025, file := "log.txt" }
    let lines := ["2025_01_15", "Getup: ", "\t0900 échecs à deux // été "]
    let text := "0900 échecs à deux // été"
    let lacking := setup.finding .invalidLineFormat 2 "Getup:" (some (7, 7))
      "invalid line format: bad 'getup' value ''"
    let unknown := setup.finding .unrecognizedActivity 3 text (some (6, 18))
      "unrecognized activity 'échecs à deux' on 2025-01-15; using it as its own category"
    lacking ∈ (setup.scan lines).2 ∧ unknown ∈ (setup.scan lines).2 ∧
      (∃ span, lacking.span = some span ∧ span.StandsBehind "Getup:") ∧
      ∃ span, unknown.span = some span ∧ span.LiesIn text ∧
        span.excerpt text = "échecs à deux" := by
  intro setup lines text lacking unknown
  have hlacking : lacking ∈ (setup.scan lines).2 := by decide +kernel
  have hunknown : unknown ∈ (setup.scan lines).2 := by decide +kernel
  have hrecorded : ∃ day ∈ (setup.scan lines).1, ∃ a ∈ day.log.activities,
      a.line = 3 ∧ a.description = "échecs à deux" := by decide +kernel
  refine ⟨hlacking, hunknown, ?_, ?_⟩
  · obtain ⟨l, hl, span, -, hspan, hraw, -, hbehind, -⟩ := scan_columns setup lines lacking hlacking
    cases hspan
    have htext : "Getup:" = l.text := Option.some.inj hraw
    have hkind : l.kind = .header .getup "" 7 := by
      rw [isRead_of_mem_logLines hl, ← htext]
      decide +kernel
    rw [← htext] at hbehind
    exact ⟨_, rfl, hbehind ⟨rfl, _, _, hkind⟩⟩
  · obtain ⟨l, -, span, -, hspan, hraw, hlies, -, hcut⟩ :=
      scan_columns setup lines unknown hunknown
    cases hspan
    have htext : text = l.text := Option.some.inj hraw
    rw [← htext] at hlies hcut
    obtain ⟨day, hday, a, ha, hline, hdescription⟩ := hrecorded
    refine ⟨_, rfl, hlies ?_, ?_⟩
    · rintro ⟨hcode, -⟩
      cases hcode
    · rw [← hdescription]
      exact (hcut rfl).2 day hday a ha hline

end Daybook
