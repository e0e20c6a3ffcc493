/-
  Daybook/Proofs/Scan/Spans.lean
  ==============================
  **Every finding of a scan is about one line.**  Whatever a scan raises, it raises
  at a line, quotes the text of that line and points at columns of it or at the
  whole of it, as the kind of the line says (`findsAt_of_mem_scan`).  A header that
  is missing in a day is a finding about its date line.
-/
import Daybook.Proofs.Scan.Findings

namespace Daybook

/-! ### Findings about a line -/

/-- Whether a finding is about a line with a text, at columns of it or at the whole of it. -/
def ScanSetup.RaisesAt (setup : ScanSetup) (line : Nat) (text : String) (d : Diagnostic) : Prop :=
  ∃ code columns message, d = setup.finding code line text columns message

theorem ScanSetup.raisesAt_finding (setup : ScanSetup) (code : Code) (line : Nat) (text : String)
    (columns : Option (Nat × Nat)) (message : String) :
    setup.RaisesAt line text (setup.finding code line text columns message) :=
  ⟨code, columns, message, rfl⟩

theorem ScanSetup.RaisesAt.line_eq {setup : ScanSetup} {line : Nat} {text : String}
    {d : Diagnostic} (h : setup.RaisesAt line text d) : d.line = line := by
  obtain ⟨code, columns, message, rfl⟩ := h
  rfl

/-- The span of a finding about a line has no other line in it, and quotes the line. -/
theorem ScanSetup.RaisesAt.span {setup : ScanSetup} {line : Nat} {text : String} {d : Diagnostic}
    (h : setup.RaisesAt line text d) :
    ∃ span, d.span = some span ∧ span.file = setup.file ∧
      span.lineStart = line ∧ span.lineEnd = line ∧ span.rawText = some text := by
  obtain ⟨code, columns, message, rfl⟩ := h
  cases columns with
  | none => exact ⟨_, rfl, rfl, rfl, rfl, rfl⟩
  | some range => exact ⟨_, rfl, rfl, rfl, rfl, rfl⟩

/-! ### What is found at a line -/

/-- The codes of findings about a part of a line. -/
def columnCodes : List Code := [.invalidLineFormat, .unrecognizedActivity]

/-- What a scan may find at a line, by the kind of the line. -/
inductive ScanSetup.FindsAt (setup : ScanSetup) (l : LogLine) : Diagnostic → Prop
  | whole {code : Code} {message : String} : l.kind ≠ .blank → code ∉ columnCodes →
      FindsAt setup l (setup.finding code l.number l.text none message)
  /-- A value that its field does not accept; the columns are those of the value, if there is
      one. -/
  | badValue {field : HeaderField} {value : String} {column : Nat} {message : String} :
      l.kind = .header field value column →
        FindsAt setup l (setup.finding .invalidLineFormat l.number l.text
          (some (column, max l.text.length column)) message)
  | invalid {fault : LineFault} {first last : Nat} {message : String} :
      l.kind = .invalid fault first last →
        FindsAt setup l (setup.finding .invalidLineFormat l.number l.text (some (first, last))
          message)
  | unrecognized {b : Block} {written : WrittenActivity} : l.kind = .activity written →
      FindsAt setup l (b.unrecognized setup l.number l.text written)

theorem ScanSetup.FindsAt.raisesAt {setup : ScanSetup} {l : LogLine} {d : Diagnostic}
    (h : setup.FindsAt l d) : setup.RaisesAt l.number l.text d := by
  cases h with
  | whole => exact setup.raisesAt_finding _ _ _ _ _
  | badValue => exact setup.raisesAt_finding _ _ _ _ _
  | invalid => exact setup.raisesAt_finding _ _ _ _ _
  | unrecognized =>
    unfold Block.unrecognized
    exact setup.raisesAt_finding _ _ _ _ _

/-! ### The lines of a day -/

namespace Block

variable {b : Block} {setup : ScanSetup} {l : LogLine} {d : Diagnostic}

theorem findsAt_of_mem_readHeader {field : HeaderField} {value : String} {column : Nat}
    (hkind : l.kind = .header field value column)
    (hd : d ∈ (b.readHeader setup l.number l.text field value column).2) :
    setup.FindsAt l d := by
  simp only [readHeader] at hd
  split at hd
  · obtain rfl := List.mem_singleton.mp hd
    exact .badValue hkind
  · split at hd
    next code message hfault =>
      obtain rfl := List.mem_singleton.mp hd
      have hne : l.kind ≠ .blank := by
        rw [hkind]
        exact LineKind.noConfusion
      have hcodes : ∀ code ∈ headerFaultCodes, code ∉ columnCodes := by decide
      exact .whole hne (hcodes code (code_of_headerFault? hfault))
    next => cases hd

theorem findsAt_of_mem_readActivity {written : WrittenActivity} (hkind : l.kind = .activity written)
    (hd : d ∈ (b.readActivity setup l.number l.text written).2) : setup.FindsAt l d := by
  simp only [readActivity] at hd
  split at hd
  · cases hd
  · dsimp only at hd
    split at hd
    · cases hd
    · obtain rfl := List.mem_singleton.mp hd
      exact .unrecognized hkind

theorem findsAt_of_mem_readLine (hd : d ∈ (b.readLine setup l.number l.text l.kind).2) :
    setup.FindsAt l d := by
  cases hkind : l.kind with
  | header field value column =>
    rw [hkind] at hd
    exact findsAt_of_mem_readHeader hkind hd
  | activity written =>
    rw [hkind] at hd
    exact findsAt_of_mem_readActivity hkind hd
  | invalid fault first last =>
    rw [hkind] at hd
    obtain rfl := List.mem_singleton.mp hd
    exact .invalid hkind
  | _ =>
    rw [hkind] at hd
    cases hd

theorem raisesAt_of_mem_readLine {line : Nat} {text : String} {kind : LineKind}
    (hd : d ∈ (b.readLine setup line text kind).2) : setup.RaisesAt line text d :=
  (findsAt_of_mem_readLine (l := ⟨line, text, kind⟩) hd).raisesAt

theorem findsAt_of_mem_readAll {lines : List LogLine} (hd : d ∈ (b.readAll setup lines).2) :
    ∃ l ∈ lines, setup.FindsAt l d := by
  induction lines generalizing b with
  | nil => cases hd
  | cons l rest ih =>
    rcases List.mem_append.mp hd with hd | hd
    · exact ⟨l, List.mem_cons_self, findsAt_of_mem_readLine hd⟩
    · obtain ⟨other, hother, hfinds⟩ := ih hd
      exact ⟨other, List.mem_cons_of_mem _ hother, hfinds⟩

theorem exists_message_of_mem_close (hd : d ∈ (b.close setup.table setup.file).2) :
    ∃ message, d = setup.finding .missingHeader b.line b.dateText none message := by
  rcases List.mem_map.mp hd with ⟨field, -, rfl⟩
  exact ⟨_, rfl⟩

theorem raisesAt_of_mem_close (hd : d ∈ (b.close setup.table setup.file).2) :
    setup.RaisesAt b.line b.dateText d := by
  obtain ⟨message, rfl⟩ := exists_message_of_mem_close hd
  exact setup.raisesAt_finding _ _ _ _ _

end Block

/-! ### A whole scan -/

section

variable {setup : ScanSetup} {d : Diagnostic}

theorem findsAt_of_mem_strayFindings {lines : List LogLine}
    (hd : d ∈ strayFindings setup lines) : ∃ l ∈ lines, setup.FindsAt l d := by
  rcases List.mem_flatMap.mp hd with ⟨l, hl, hd⟩
  split at hd
  next => cases hd
  next hkind =>
    obtain rfl := List.mem_singleton.mp hd
    exact ⟨l, hl, .whole hkind (by decide)⟩

theorem findsAt_of_mem_dateFindings {p : Place} (hd : d ∈ p.dateFindings setup) :
    setup.FindsAt p.line d := by
  have hkind : p.line.kind ≠ .blank := by
    intro hblank
    rw [Place.dateFindings, hblank] at hd
    cases hd
  dsimp only [Place.dateFindings] at hd
  split at hd
  · split at hd
    · obtain rfl := List.mem_singleton.mp hd
      exact .whole hkind (by decide)
    · split at hd
      · obtain rfl := List.mem_singleton.mp hd
        exact .whole hkind (by decide)
      · split at hd
        · cases hd
        · obtain rfl := List.mem_singleton.mp hd
          exact .whole hkind (by decide)
  · cases hd

theorem findsAt_of_mem_read {o : Opening} (hkind : o.place.line.kind ≠ .blank)
    (hd : d ∈ (o.read setup).2) : ∃ l ∈ o.place.line :: o.place.block, setup.FindsAt l d := by
  rcases List.mem_append.mp hd with hd | hd
  · obtain ⟨l, hl, hfinds⟩ := Block.findsAt_of_mem_readAll hd
    exact ⟨l, List.mem_cons_of_mem _ hl, hfinds⟩
  · -- the block still has the number and the text of its date line
    have htitle := o.start.title_readAll setup o.place.block
    have hline : (o.start.readAll setup o.place.block).1.line = o.place.line.number :=
      congrArg (fun title => title.2.1) htitle
    have htext : (o.start.readAll setup o.place.block).1.dateText = o.place.line.text :=
      congrArg (fun title => title.2.2) htitle
    obtain ⟨message, hmissing⟩ := Block.exists_message_of_mem_close hd
    rw [hline, htext] at hmissing
    rw [hmissing]
    exact ⟨o.place.line, List.mem_cons_self, .whole hkind (by decide)⟩

/-- What a place raises is found at its line or in the block behind it. -/
theorem findsAt_of_mem_findings {p : Place} (hd : d ∈ p.findings setup) :
    ∃ l ∈ p.line :: p.after, setup.FindsAt l d := by
  rw [Place.findings, List.mem_append] at hd
  rcases hd with hd | hd
  · exact ⟨p.line, List.mem_cons_self, findsAt_of_mem_dateFindings hd⟩
  · split at hd
    next => cases hd
    next o ho =>
      obtain ⟨rfl, hdate, -⟩ := Place.opening?_eq_some.mp ho
      have hkind : o.place.line.kind ≠ .blank := by
        intro hblank
        rw [Place.date?, hblank] at hdate
        cases hdate
      obtain ⟨l, hl, hfinds⟩ := findsAt_of_mem_read hkind hd
      have hsub : o.place.line :: o.place.block ⊆ o.place.line :: o.place.after :=
        List.cons_subset_cons _ (List.takeWhile_sublist _).subset
      exact ⟨l, hsub hl, hfinds⟩

/-- **Every finding of a scan is found at a line of the log.** -/
theorem findsAt_of_mem_scan {lines : List String} (hd : d ∈ (setup.scan lines).2) :
    ∃ l ∈ logLines setup.table 1 lines, setup.FindsAt l d := by
  rw [scan_eq] at hd
  rcases List.mem_append.mp hd with hd | hd
  · obtain ⟨l, hl, hfinds⟩ := findsAt_of_mem_strayFindings hd
    exact ⟨l, (List.takeWhile_sublist _).mem hl, hfinds⟩
  · rcases List.mem_flatMap.mp hd with ⟨p, hp, hd⟩
    obtain ⟨l, hl, hfinds⟩ := findsAt_of_mem_findings hd
    refine ⟨l, ?_, hfinds⟩
    rw [← mem_places.mp hp]
    exact List.mem_append_right _ hl

/-- **Every finding of a scan is about one line.** -/
theorem raisesAt_of_mem_scan {lines : List String} (hd : d ∈ (setup.scan lines).2) :
    ∃ line text, setup.RaisesAt line text d := by
  obtain ⟨l, -, hfinds⟩ := findsAt_of_mem_scan hd
  exact ⟨l.number, l.text, hfinds.raisesAt⟩

end

end Daybook
