/-
  Daybook/Proofs/Scan/Activities.lean
  ===================================
  **No activity line is lost.**  The activities of a scanned day stand for the
  activity lines of its block, one for one and in order, without a wake line that
  opened the day (`scan_forall₂_recordsLine`); an activity that no rule knows is
  reported at its line, and nothing else is reported so.
-/
import Daybook.Proofs.Scan.Findings

namespace Daybook

/-- Whether an activity says what an activity line says.  Its path is the one that the description
    has for the time that the activity took. -/
structure RecordsLine (table : RuleTable) (line : ActivityLine) (a : Activity) : Prop where
  number : a.line = line.number
  finish : a.finish = line.written.endTime
  description : a.description = line.written.description
  remark : a.remark = line.written.remark
  path : a.path = (table.resolve line.written.description a.seconds).path

theorem recordsLine_record (table : RuleTable) (start : TimeOfDay) (line : ActivityLine) :
    RecordsLine table line (table.record start line) where
  number := rfl
  finish := rfl
  description := rfl
  remark := rfl
  path := rfl

theorem forall₂_recordFrom (table : RuleTable) (start : TimeOfDay) (lines : List ActivityLine) :
    List.Forall₂ (RecordsLine table) lines (table.recordFrom start lines) := by
  induction lines generalizing start with
  | nil => exact .nil
  | cons line rest ih => exact .cons (recordsLine_record table start line) (ih _)

/-- What the lines of an opened day raise as unrecognized are the activities that no rule knows. -/
theorem Opening.unrecognized_read (o : Opening) (setup : ScanSetup) :
    linesWith .unrecognizedActivity (o.read setup).2 =
      ((o.read setup).1.log.activities.filter fun a => !setup.table.knows a).map Activity.line := by
  obtain ⟨new, hactivities, hfindings⟩ :=
    Block.unrecognized_readAll o.start setup o.place.block
  have hnew : (o.read setup).1.log.activities = new := hactivities
  have hclose : linesWith .unrecognizedActivity
      ((o.start.readAll setup o.place.block).1.close setup.table setup.file).2 = [] := by
    apply linesWith_eq_nil
    intro d hd
    simp [Block.code_of_mem_close hd]
  calc linesWith .unrecognizedActivity (o.read setup).2
      = linesWith .unrecognizedActivity (o.start.readAll setup o.place.block).2 ++ [] := by
        rw [← hclose, ← linesWith_append]
        rfl
    _ = _ := by rw [List.append_nil, hfindings, hnew]

/-- **The days of a scan are the records of its blocks.**  Each opening of the log gives a day, in
    order.  If the first activity line of its block is a wake line, the day opens with it and
    records the other activity lines; otherwise it records all of them.  The activities that no rule
    knows are reported at their lines, in order, and none else. -/
theorem scan_forall₂_recordsLine (setup : ScanSetup) (lines : List String) :
    List.Forall₂
        (fun (o : Opening) (day : ScannedDay) =>
          day.log.line = o.place.line.number ∧ day.log.date = o.date ∧
            day.wake = setup.table.openingWake? (activityLines o.place.block) ∧
            List.Forall₂ (RecordsLine setup.table)
              (setup.table.recordedLines (activityLines o.place.block)) day.log.activities)
        (setup.openings lines) (setup.scan lines).1 ∧
      linesWith .unrecognizedActivity (setup.scan lines).2 =
        (setup.scan lines).1.flatMap fun day =>
          (day.log.activities.filter fun a => !setup.table.knows a).map Activity.line := by
  constructor
  · apply forall₂_scan
    intro o ho
    obtain ⟨hactivities, hwake⟩ := Opening.course_read ho
    refine ⟨o.line_read setup, o.date_read setup, hwake, ?_⟩
    rw [hactivities]
    exact forall₂_recordFrom _ _ _
  · rw [days_scan, List.flatMap_map, linesWith_scan_of_dayCode setup lines (by decide)]
    exact congrArg (List.flatMap · _) (funext fun o => o.unrecognized_read setup)

end Daybook
