/-
  Daybook/Proofs/Scan/Remarks.lean
  ================================
  **What becomes of the remarks on activity lines.**  An activity line that is
  recorded leaves its remark to its activity.  A wake line that opens a day is not
  recorded, and what is remarked on it goes nowhere: no activity has it, the remark
  of the day is made of remark lines alone, and nothing is found at the line
  (`scan_remarks`).  So a remark can be lost without a word (`exists_lost_remark`).
-/
import Daybook.Proofs.Scan.Activities
import Daybook.Proofs.Scan.InBlocks
import Mathlib.Data.List.Nodup

namespace Daybook

/-- Whether a line of a day opens the day. -/
def RuleTable.OpensWith (table : RuleTable) (written : List ActivityLine) (line : ActivityLine) :
    Prop :=
  written.head? = some line ∧ table.wakes line = true

/-- Whether an activity of a day has what is remarked on an activity line. -/
def ScannedDay.Keeps (day : ScannedDay) (line : ActivityLine) : Prop :=
  ∃ a ∈ day.log.activities, a.line = line.number ∧ a.remark = line.written.remark

/-- Whether what is remarked on an activity line is on record, or something is found at the line. -/
def ScannedDay.AccountsFor (day : ScannedDay) (findings : List Diagnostic) (line : ActivityLine) :
    Prop :=
  ∀ remark ∈ line.written.remark,
    (∃ a ∈ day.log.activities, a.line = line.number ∧ a.remark = some remark) ∨
      (∃ text ∈ day.log.remark, remark.toList <:+: text.toList) ∨
      ∃ d ∈ findings, d.line = line.number

theorem ScannedDay.Keeps.accountsFor {day : ScannedDay} {line : ActivityLine} (h : day.Keeps line)
    (findings : List Diagnostic) : day.AccountsFor findings line := by
  obtain ⟨a, ha, hnumber, hremark⟩ := h
  intro remark hwritten
  exact .inl ⟨a, ha, hnumber, hremark.trans hwritten⟩

/-! ### The numbers of activity lines -/

theorem pairwise_number_logLines (table : RuleTable) (n : Nat) (lines : List String) :
    (logLines table n lines).Pairwise fun l m => l.number < m.number := by
  rw [List.pairwise_iff_getElem]
  intro i j hi hj hij
  have hget (k : Nat) (hk : k < (logLines table n lines).length) :
      (logLines table n lines)[k].number = n + k := by
    have hsome := List.getElem?_eq_getElem hk
    rw [getElem?_logLines] at hsome
    obtain ⟨raw, -, hraw⟩ := Option.map_eq_some_iff.mp hsome
    rw [← hraw, LogLine.number_ofRaw]
  rw [hget i hi, hget j hj]
  omega

section

variable {setup : ScanSetup} {lines : List String} {o : Opening} {line : ActivityLine}

theorem number_of_activityLine? {l : LogLine} (h : l.activityLine? = some line) :
    l.activity? = some line.written ∧ l.number = line.number := by
  obtain ⟨written, hwritten, rfl⟩ := Option.map_eq_some_iff.mp h
  exact ⟨hwritten, rfl⟩

theorem Opening.pairwise_number (ho : o ∈ setup.openings lines) :
    (activityLines o.place.block).Pairwise fun l m => l.number < m.number := by
  have hblock : o.place.block.Sublist (logLines setup.table 1 lines) := by
    rw [← mem_places.mp (Opening.mem_openings.mp ho).1]
    exact (List.takeWhile_sublist _).trans
      ((List.sublist_cons_self _ _).trans (List.sublist_append_right _ _))
  refine ((pairwise_number_logLines setup.table 1 lines).sublist hblock).filterMap _ ?_
  intro l m hlt a ha b hb
  rw [← (number_of_activityLine? ha).2, ← (number_of_activityLine? hb).2]
  exact hlt

/-! ### Lines that are recorded -/

/-- All lines are recorded but one that opens the day. -/
theorem RuleTable.mem_recordedLines_iff {table : RuleTable} {written : List ActivityLine}
    (h : written.Pairwise fun l m => l.number < m.number) (hline : line ∈ written) :
    line ∈ table.recordedLines written ↔ ¬table.OpensWith written line := by
  cases written with
  | nil => cases hline
  | cons first rest =>
    obtain ⟨hfirst, -⟩ := List.pairwise_cons.mp h
    rw [recordedLines, OpensWith, List.head?_cons, Option.some.injEq]
    by_cases hwakes : table.wakes first = true
    · rw [if_pos hwakes]
      constructor
      · rintro hrest ⟨rfl, -⟩
        exact Nat.lt_irrefl _ (hfirst first hrest)
      · intro hnot
        rcases List.mem_cons.mp hline with rfl | hrest
        · exact absurd ⟨rfl, hwakes⟩ hnot
        · exact hrest
    · rw [if_neg hwakes]
      refine iff_of_true hline ?_
      rintro ⟨rfl, hopens⟩
      exact hwakes hopens

theorem RuleTable.map_remark_recordFrom (table : RuleTable) (start : TimeOfDay)
    (recorded : List ActivityLine) :
    (table.recordFrom start recorded).map (fun a => (a.line, a.remark)) =
      recorded.map fun line => (line.number, line.written.remark) := by
  induction recorded generalizing start with
  | nil => rfl
  | cons line rest ih => exact congrArg (_ :: ·) (ih _)

theorem Opening.keeps_iff (ho : o ∈ setup.openings lines)
    (hline : line ∈ activityLines o.place.block) :
    (o.read setup).1.Keeps line ↔
      line ∈ setup.table.recordedLines (activityLines o.place.block) := by
  have hremarks : (o.read setup).1.log.activities.map (fun a => (a.line, a.remark)) = _ :=
    (congrArg _ (Opening.course_read ho).1).trans (RuleTable.map_remark_recordFrom _ _ _)
  constructor
  · rintro ⟨a, ha, hnumber, -⟩
    have hpair := List.mem_map_of_mem (f := fun a : Activity => (a.line, a.remark)) ha
    rw [hremarks] at hpair
    obtain ⟨m, hm, hsame⟩ := List.mem_map.mp hpair
    have hnumbers : ((activityLines o.place.block).map ActivityLine.number).Nodup :=
      List.pairwise_map.mpr ((Opening.pairwise_number ho).imp Nat.ne_of_lt)
    have hwritten := (setup.table.recordedLines_sublist _).mem hm
    rwa [← List.inj_on_of_nodup_map hnumbers hwritten hline
      ((congrArg Prod.fst hsame).trans hnumber)]
  · intro hm
    have hpair := List.mem_map_of_mem (f := fun m : ActivityLine => (m.number, m.written.remark)) hm
    rw [← hremarks] at hpair
    obtain ⟨a, ha, hsame⟩ := List.mem_map.mp hpair
    exact ⟨a, ha, congrArg Prod.fst hsame, congrArg Prod.snd hsame⟩

/-- Nothing is found at a wake line that opens a day. -/
theorem Opening.line_ne_of_opens (ho : o ∈ setup.openings lines)
    (h : setup.table.OpensWith (activityLines o.place.block) line) {d : Diagnostic}
    (hd : d ∈ (setup.scan lines).2) : d.line ≠ line.number := by
  obtain ⟨hhead, hwakes⟩ := h
  obtain ⟨others, hwritten⟩ := List.head?_eq_some_iff.mp hhead
  obtain ⟨between, l, rest, hblock, hnone, hl, -⟩ := List.filterMap_eq_cons_iff.mp hwritten
  have hbetween : activityLines between = [] := List.filterMap_eq_nil_iff.mpr hnone
  obtain ⟨hactivity, hnumber⟩ := number_of_activityLine? hl
  have hread (m : LogLine) (hm : m ∈ between ++ l :: rest) : m.IsRead setup.table := by
    rw [← hblock] at hm
    exact Place.isRead_of_mem_block (Opening.mem_openings.mp ho).1 hm
  obtain ⟨hactivities, hwake⟩ := Block.readAll_of_awaits (b := o.start) setup between rfl
    fun m hm => hread m (List.mem_append_left _ hm)
  rw [hbetween] at hactivities hwake
  have hawaits : (o.start.readAll setup between).1.awaitsWake = true :=
    (Block.awaitsWake_iff _).mpr ⟨hactivities, hwake⟩
  have htrimmed := (hread l (by simp)).trimmed_description hactivity
  have hopens := Block.readActivity_of_opens (o.start.readAll setup between).1 setup l.number l.text
    (by rw [htrimmed]; exact hwakes) hawaits
  rw [← hnumber]
  intro hat
  have hfound := (mem_scan_iff_of_block ho hblock).mp ⟨hd, hat⟩
  rw [LogLine.kind_of_activity? hactivity, Block.readLine, hopens] at hfound
  cases hfound

end

/-- **What becomes of the remarks on the activity lines of a day.**  The remark of the day is made
    of its remark lines alone.  A remark on an activity line is kept by the activity of the line, and
    so is accounted for, unless the line opens the day: then no activity has it, and nothing is found
    at the line. -/
theorem scan_remarks (setup : ScanSetup) (lines : List String) :
    List.Forall₂
      (fun (o : Opening) (day : ScannedDay) =>
        let written := activityLines o.place.block
        day.log.remark = joinedRemark? o.place.block ∧
          ∀ line ∈ written,
            (day.Keeps line ↔ ¬setup.table.OpensWith written line) ∧
              (¬setup.table.OpensWith written line →
                day.AccountsFor (setup.scan lines).2 line) ∧
              (setup.table.OpensWith written line →
                ∀ d ∈ (setup.scan lines).2, d.line ≠ line.number))
      (setup.openings lines) (setup.scan lines).1 := by
  apply forall₂_scan
  intro o ho
  refine ⟨(Opening.header_closed ho).2.2, ?_⟩
  intro line hline
  have hkeeps : (o.read setup).1.Keeps line ↔
      ¬setup.table.OpensWith (activityLines o.place.block) line := by
    rw [Opening.keeps_iff ho hline,
      RuleTable.mem_recordedLines_iff (Opening.pairwise_number ho) hline]
  exact ⟨hkeeps, fun h => (hkeeps.mpr h).accountsFor _,
    fun h d hd => Opening.line_ne_of_opens ho h hd⟩

/-- A wake line opens the day, and another one ends a nap. -/
theorem scan_remarks_nap :
    let setup : ScanSetup := { table := {}, fallbackYear := 2025, file := "log.txt" }
    let lines := ["2025_01_15", "0700wake // slept badly", "1300read", "1330wake // a nap"]
    ∃ o ∈ setup.openings lines, ∃ day ∈ (setup.scan lines).1,
      ∃ opening ∈ activityLines o.place.block, ∃ nap ∈ activityLines o.place.block,
        opening.written.remark = some "slept badly" ∧ nap.written.remark = some "a nap" ∧
          ¬day.Keeps opening ∧ day.Keeps nap := by
  intro setup lines
  have hone : (setup.openings lines).length = 1 := by decide +kernel
  have hwritten : ∀ o ∈ setup.openings lines, ∃ opening ∈ activityLines o.place.block,
      ∃ nap ∈ activityLines o.place.block,
        opening.written.remark = some "slept badly" ∧ nap.written.remark = some "a nap" ∧
          setup.table.OpensWith (activityLines o.place.block) opening ∧
          ¬setup.table.OpensWith (activityLines o.place.block) nap := by
    unfold RuleTable.OpensWith
    decide +kernel
  obtain ⟨o, ho⟩ := List.length_eq_one_iff.mp hone
  have hdays := scan_remarks setup lines
  rw [ho] at hdays hwritten
  obtain ⟨day, rest, hday, -, hscan⟩ := List.forall₂_cons_left_iff.mp hdays
  obtain ⟨opening, hopening, nap, hnap, hbadly, hshort, hopens, hrecorded⟩ :=
    hwritten o List.mem_cons_self
  rw [ho, hscan]
  refine ⟨o, List.mem_cons_self, day, List.mem_cons_self, opening, hopening, nap, hnap, hbadly,
    hshort, ?_, (hday.2 nap hnap).1.mpr hrecorded⟩
  exact fun hkeeps => (hday.2 opening hopening).1.mp hkeeps hopens

/-- A remark on a wake line that opens a day is on no record, and nothing is found at the line. -/
theorem exists_lost_remark :
    let setup : ScanSetup := {
      table := { headerOrder := [] }, fallbackYear := 2025, file := "log.txt" }
    let lines := ["2025_01_15", "0700wake // slept badly"]
    ¬List.Forall₂
      (fun (o : Opening) (day : ScannedDay) =>
        ∀ line ∈ activityLines o.place.block, day.AccountsFor (setup.scan lines).2 line)
      (setup.openings lines) (setup.scan lines).1 := by
  unfold ScannedDay.AccountsFor
  decide +kernel

end Daybook
