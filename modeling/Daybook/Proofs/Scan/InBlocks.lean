/-
  Daybook/Proofs/Scan/InBlocks.lean
  =================================
  **What a scan raises inside a day.**  Line by line, a scan raises what is missing
  in the days that end and what each line raises about itself (`findings_scan`).
  A line of a block is read where the lines before it in the block have led
  (`standing_of_block`), so what a scan raises about it is what it raises there
  (`mem_scan_iff_of_block`).
-/
import Daybook.Proofs.Scan.Dates
import Daybook.Proofs.Scan.LineFindings

namespace Daybook

/-! ### Line by line -/

/-- What a line raises: what is missing in the day that it ends, and what it raises about itself. -/
def Place.raises (setup : ScanSetup) (p : Place) : List Diagnostic :=
  setup.missedAt p.before p.line ++ setup.ownFindings p.before p.line

theorem Scanner.Reached.findings_complete {setup : ScanSetup} {done : List LogLine} {s : Scanner}
    (h : Reached setup done s) (n : Nat) (lines : List String) :
    (s.complete setup n lines).2 =
      (placesFrom done (logLines setup.table n lines)).flatMap (Place.raises setup) ++
        setup.missing (done ++ logLines setup.table n lines) := by
  induction lines generalizing s done n with
  | nil =>
    rw [Scanner.complete_nil, h.finish_eq, logLines, List.append_nil]
    rfl
  | cons raw rest ih =>
    have hrest := ih (h.fed n raw) (n + 1)
    rw [List.append_assoc, List.singleton_append] at hrest
    rw [Scanner.complete_cons]
    dsimp only
    rw [hrest, h.findings_step n raw, ← List.append_assoc]
    rfl

/-- **What a scan raises**, line by line and at its end. -/
theorem findings_scan (setup : ScanSetup) (lines : List String) :
    let log := logLines setup.table 1 lines
    (setup.scan lines).2 = (places log).flatMap (Place.raises setup) ++ setup.missing log :=
  Scanner.Reached.start.findings_complete 1 lines

section

variable {setup : ScanSetup} {lines : List String} {d : Diagnostic}

/-- What is missing in a day is found at a date line. -/
theorem exists_date_of_mem_missing {done : List LogLine} (hd : d ∈ setup.missing done) :
    ∃ p ∈ places done, p.line.isDate = true ∧ d.line = p.line.number := by
  unfold ScanSetup.missing at hd
  split at hd
  next => cases hd
  next o ho =>
    obtain ⟨p, hlast, hopens⟩ := Option.bind_eq_some_iff.mp ho
    obtain ⟨hp, hdate, -⟩ := lastDate?_eq_some_iff.mp hlast
    obtain ⟨rfl, -, -⟩ := Place.opening?_eq_some.mp hopens
    exact ⟨o.place, hp, hdate, (ScanSetup.code_line_of_mem_missing hd).2⟩

theorem exists_place_of_prefix {done log : List LogLine} {p : Place} (hp : p ∈ places done)
    (h : done <+: log) : ∃ q ∈ places log, q.line = p.line := by
  obtain ⟨rest, rfl⟩ := h
  refine ⟨{ p with after := p.after ++ rest }, mem_places.mpr ?_, rfl⟩
  simp [← mem_places.mp hp]

/-- There is one place for each number of a log. -/
theorem place_of_number_eq {p q : Place} (hp : p ∈ places (logLines setup.table 1 lines))
    (hq : q ∈ places (logLines setup.table 1 lines)) (h : p.line.number = q.line.number) :
    p = q := by
  rw [number_of_mem_places hp, number_of_mem_places hq] at h
  have hcut := (mem_places.mp hp).trans (mem_places.mp hq).symm
  obtain ⟨hbefore, hrest⟩ := List.append_inj hcut (by omega)
  obtain ⟨hline, hafter⟩ := List.cons.inj hrest
  cases p
  cases q
  simp_all

/-- No day misses a header at a line that is no date line. -/
theorem line_ne_of_mem_missing {done : List LogLine} {p : Place}
    (hp : p ∈ places (logLines setup.table 1 lines)) (hdate : p.line.isDate = false)
    (hdone : done <+: logLines setup.table 1 lines) (hd : d ∈ setup.missing done) :
    d.line ≠ p.line.number := by
  intro hline
  obtain ⟨q, hq, hqdate, hqline⟩ := exists_date_of_mem_missing hd
  obtain ⟨q', hq', hsame⟩ := exists_place_of_prefix hq hdone
  have hnumber : q'.line.number = p.line.number := by rw [hsame, ← hqline, hline]
  rw [← hsame, place_of_number_eq hq' hp hnumber, hdate] at hqdate
  cases hqdate

/-- **What a scan raises about a line** that is no date line is what the line raises about
    itself. -/
theorem mem_scan_iff {p : Place} (hp : p ∈ places (logLines setup.table 1 lines))
    (hdate : p.line.isDate = false) :
    d ∈ (setup.scan lines).2 ∧ d.line = p.line.number ↔ d ∈ setup.ownFindings p.before p.line := by
  rw [findings_scan]
  constructor
  · rintro ⟨hd, hline⟩
    rcases List.mem_append.mp hd with hd | hd
    · obtain ⟨q, hq, hd⟩ := List.mem_flatMap.mp hd
      rcases List.mem_append.mp hd with hd | hd
      · -- what the line finds missing is missing in a day before it
        unfold ScanSetup.missedAt at hd
        split at hd
        · have hbefore : q.before <+: logLines setup.table 1 lines := ⟨_, mem_places.mp hq⟩
          exact absurd hline (line_ne_of_mem_missing hp hdate hbefore hd)
        · cases hd
      · have habout := (ScanSetup.findsAt_of_mem_ownFindings hd).1.isAbout.line
        rwa [place_of_number_eq hp hq (hline.symm.trans habout)]
    · exact absurd hline (line_ne_of_mem_missing hp hdate (List.prefix_refl _) hd)
  · intro hd
    refine ⟨?_, (ScanSetup.findsAt_of_mem_ownFindings hd).1.isAbout.line⟩
    refine List.mem_append_left _ (List.mem_flatMap.mpr ⟨p, hp, ?_⟩)
    exact List.mem_append_right _ hd

/-! ### The lines of a block -/

variable {o : Opening} {between rest : List LogLine} {l : LogLine}

theorem isDate_of_mem_block {p : Place} (hl : l ∈ p.block) : l.isDate = false := by
  simpa using List.mem_takeWhile_imp hl

/-- A line of a block stands in the log behind the lines of the block before it. -/
theorem exists_place_of_block (ho : o ∈ setup.openings lines)
    (hblock : o.place.block = between ++ l :: rest) :
    ∃ after, ⟨o.place.before ++ o.place.line :: between, l, after⟩ ∈
      places (logLines setup.table 1 lines) := by
  have hafter : o.place.after = o.place.block ++ o.place.after.dropWhile fun l => !l.isDate :=
    List.takeWhile_append_dropWhile.symm
  rw [hblock, List.append_assoc] at hafter
  refine ⟨rest ++ o.place.after.dropWhile fun l => !l.isDate, mem_places.mpr ?_⟩
  rw [← mem_places.mp (Opening.mem_openings.mp ho).1, List.append_assoc]
  exact congrArg (fun after => o.place.before ++ o.place.line :: after) hafter.symm

/-- **Where the lines of a block are read**: in the day, after the lines of the block before
    them. -/
theorem standing_of_block (ho : o ∈ setup.openings lines)
    (hbetween : ∀ m ∈ between, m.isDate = false) :
    setup.standing (o.place.before ++ o.place.line :: between) =
      .inDay (o.start.readAll setup between).1 := by
  obtain ⟨-, hdate, hnew⟩ := Opening.mem_openings.mp ho
  have hlast : lastDate? (o.place.before ++ o.place.line :: between) =
      some ⟨o.place.before, o.place.line, between⟩ :=
    lastDate?_eq_some_iff.mpr ⟨mem_places.mpr rfl, Place.isDate_of_date? hdate, hbetween⟩
  have hopens : Place.opening? setup.fallbackYear ⟨o.place.before, o.place.line, between⟩ =
      some ⟨⟨o.place.before, o.place.line, between⟩, o.date⟩ :=
    Place.opening?_eq_some.mpr ⟨rfl, hdate, hnew⟩
  rw [ScanSetup.standing, hlast]
  dsimp only
  rw [hopens]
  rfl

/-- **What a scan raises about a line of a block** is what the line raises in the day, after the
    lines of the block before it. -/
theorem mem_scan_iff_of_block (ho : o ∈ setup.openings lines)
    (hblock : o.place.block = between ++ l :: rest) :
    d ∈ (setup.scan lines).2 ∧ d.line = l.number ↔
      d ∈ ((o.start.readAll setup between).1.readLine setup l.number l.text l.kind).2 := by
  have hnone : ∀ m ∈ between ++ l :: rest, m.isDate = false := by
    intro m hm
    rw [← hblock] at hm
    exact isDate_of_mem_block hm
  obtain ⟨after, hplace⟩ := exists_place_of_block ho hblock
  have hl : l.isDate = false := hnone l (by simp)
  have hstanding := standing_of_block ho fun m hm => hnone m (List.mem_append_left _ hm)
  rw [mem_scan_iff hplace hl, ScanSetup.ownFindings, hl, if_neg Bool.false_ne_true, hstanding]

end

end Daybook
