/-
  Daybook/Proofs/Command/Convert.lean
  ===================================
  **What converting files does.**  With rules that are no rules nothing is read and
  nothing written.  Otherwise all files are read and one report is added, that of
  the findings of all files; summaries are printed before unless some file cannot
  be read to its end, and then the first such file is named
  (`ConvertRequest.perform_script`).  What a summary says is spelled out here once
  more, from the records themselves (`Outcome.summaryLines`, `Outcome.summaryObject`).
-/
import Daybook.Command.Convert
import Daybook.Proofs.Conversion.Unreadable
import Daybook.Proofs.Conversion.Workers
import Daybook.Proofs.Record.Grouping

namespace Daybook

/-! ### Files that cannot be read -/

/-- Whether there is no text to be read at a path. -/
def IsUnreadable (read : String → Except FileError ByteArray) (path : String) : Prop :=
  ∀ bytes, read path = .ok bytes → ¬ bytes.IsValidUTF8

namespace Converter

variable {c : Converter} {read other : String → Except FileError ByteArray} {path : String}

theorem exists_result_error_iff :
    (∃ cause, c.result read path = .error cause) ↔ IsUnreadable read path := by
  unfold result convertFile IsUnreadable
  cases read path with
  | error cause => simp
  | ok bytes =>
    simp only [Except.ok.injEq, forall_eq']
    exact exists_error_iff

theorem not_isUnreadable_iff :
    ¬ IsUnreadable read path ↔ ∃ outcome, c.result read path = .ok outcome := by
  rw [← c.exists_result_error_iff]
  cases c.result read path <;> simp

theorem source_of_result {outcome : Outcome} (h : c.result read path = .ok outcome) :
    outcome.source = path := by
  unfold result convertFile at h
  cases hread : read path with
  | error cause =>
    rw [hread] at h
    cases h
  | ok bytes =>
    simp only [hread, convert_eq] at h
    split at h
    · obtain rfl := Except.ok.inj h
      rfl
    · cases h

/-- Outcomes tell which files they are of. -/
theorem sources_of_results {paths : List String} {outcomes : List Outcome}
    (h : List.Forall₂ (fun path outcome => c.result read path = .ok outcome) paths outcomes) :
    outcomes.map Outcome.source = paths := by
  induction h with
  | nil => rfl
  | cons hresult _ ih => rw [List.map_cons, source_of_result hresult, ih]

theorem convertFiles_congr {shared : Diagnostics} {paths : List String}
    (h : ∀ path ∈ paths, read path = other path) :
    c.convertFiles read shared paths = c.convertFiles other shared paths := by
  induction paths generalizing shared with
  | nil => rfl
  | cons path rest ih =>
    have hfile : c.convertFile read path .quiet = c.convertFile other path .quiet := by
      unfold convertFile
      rw [h path List.mem_cons_self]
    have hrest := fun shared =>
      @ih shared fun next hnext => h next (List.mem_cons_of_mem _ hnext)
    simp only [convertFiles, hfile, hrest]

end Converter

/-! ### All outcomes -/

/-- Either the first path without an outcome is found, or all paths have one. -/
theorem allOutcomes_map (result : String → Except ReadError Outcome) (paths : List String) :
    (∃ before path after cause, paths = before ++ path :: after ∧
        (∀ earlier ∈ before, ∃ outcome, result earlier = .ok outcome) ∧
        result path = .error cause ∧
        allOutcomes (paths.map fun path => (path, result path)) = .error (path, cause)) ∨
      ∃ outcomes, (∀ path ∈ paths, ∃ outcome, result path = .ok outcome) ∧
        List.Forall₂ (fun path outcome => result path = .ok outcome) paths outcomes ∧
        allOutcomes (paths.map fun path => (path, result path)) = .ok outcomes := by
  induction paths with
  | nil =>
    refine .inr ⟨[], ?_, .nil, rfl⟩
    intro path hpath
    cases hpath
  | cons path rest ih =>
    cases hresult : result path with
    | error cause =>
      refine .inl ⟨[], path, rest, cause, rfl, ?_, hresult, ?_⟩
      · intro earlier hearlier
        cases hearlier
      · rw [List.map_cons, hresult, allOutcomes]
    | ok outcome =>
      rcases ih with
        ⟨before, bad, after, cause, hcut, hbefore, hbad, hall⟩ | ⟨outcomes, hsome, hok, hall⟩
      · refine .inl ⟨path :: before, bad, after, cause, ?_, ?_, hbad, ?_⟩
        · rw [hcut, List.cons_append]
        · exact List.forall_mem_cons.mpr ⟨⟨outcome, hresult⟩, hbefore⟩
        · rw [List.map_cons, hresult, allOutcomes, hall]
      · refine .inr ⟨outcome :: outcomes, ?_, .cons hresult hok, ?_⟩
        · exact List.forall_mem_cons.mpr ⟨⟨outcome, hresult⟩, hsome⟩
        · rw [List.map_cons, hresult, allOutcomes, hall]

/-! ### What is printed -/

theorem join_flatMap {α : Type} (items : List α) (f : α → List String) :
    String.join (items.flatMap f) = String.join (items.map fun item => String.join (f item)) := by
  induction items with
  | nil => rfl
  | cons item rest ih => simp [ih]

namespace Outcome

/-- What is printed of a converted file, line by line: its name, how many days and findings it has,
    and whether its records hold; then how many days it has in each of its months. -/
def summaryLines (o : Outcome) : List String :=
  let verdict := if o.validationFailed then "FAILED" else "ok"
  s!"{o.source}: {o.logs.length} days, {o.diagnostics.length} diagnostics [{verdict}]\n" ::
    (monthTexts o.logs).map fun month => s!"  {month}: {(ofMonth month o.logs).length} days\n"

/-- The same in one object, with the days of each month themselves. -/
def summaryObject (o : Outcome) : Json :=
  .object
    [("source", .string o.source),
     ("validation_failed", .boolean o.validationFailed),
     ("diagnostics", .integer o.diagnostics.length),
     ("months", .object ((monthTexts o.logs).map fun month =>
       (month, .array ((sortByDate (ofMonth month o.logs)).map DailyLog.toJson))))]

theorem summary_eq (o : Outcome) : o.summary = String.join o.summaryLines := by
  have hmonths : o.months.entries =
      (monthTexts o.logs).map fun month => (month, sortByDate (ofMonth month o.logs)) :=
    entries_groupByMonth o.logs
  have hlength (month : String) :
      (sortByDate (ofMonth month o.logs)).length = (ofMonth month o.logs).length :=
    (perm_sortByDate _).length_eq
  rw [summary, hmonths, List.map_map, summaryLines]
  simp [Function.comp_def, hlength]

theorem summaryJson_eq (o : Outcome) : o.summaryJson = o.summaryObject := by
  rw [summaryJson, summaryObject, months, Mapping.toJson, entries_groupByMonth, List.map_map]
  rfl

end Outcome

theorem printedOutcomes_eq (json : Bool) (outcomes : List Outcome) :
    printedOutcomes json outcomes =
      if json then Json.pretty (.array (outcomes.map Outcome.summaryObject)) ++ "\n"
      else String.join (outcomes.flatMap Outcome.summaryLines) := by
  rw [printedOutcomes, join_flatMap, funext Outcome.summary_eq, funext Outcome.summaryJson_eq]

/-- A file whose records do not hold and that has two months, and a file without days. -/
example :
    let finding := Diagnostic.ofCode .missingDate 3 "no daily log for 2025-02-01"
    let first : Outcome := {
      source := "a.txt", diagnostics := [finding]
      logs := [
        { date := { year := 2025, month := 2, day := 2 } },
        { date := { year := 2025, month := 1, day := 31 } },
        { date := { year := 2025, month := 2, day := 3 } }] }
    let second : Outcome := { source := "b.txt", logs := [], diagnostics := [] }
    printedOutcomes false [first, second] =
        "a.txt: 3 days, 1 diagnostics [FAILED]\n  2025-01: 1 days\n  2025-02: 2 days\n" ++
        "b.txt: 0 days, 0 diagnostics [ok]\n" ∧
      printedOutcomes true [second] =
        "[\n  \x7b\n    \"source\": \"b.txt\",\n    \"validation_failed\": false,\n" ++
        "    \"diagnostics\": 0,\n    \"months\": \x7b\x7d\n  \x7d\n]\n" := by
  constructor <;> cbv

/-! ### The command -/

namespace ConvertRequest

variable {request : ConvertRequest} {settings : Settings} {currentYear : Int} {c : Converter}

theorem perform_script_of_error {fault : RuleError} (h : Converter.ofConfig
    (settings.conversion.withMode request.mode) currentYear = .error fault) (outside : Outside) :
    (request.script settings currentYear).perform outside = ([], some (.badTable fault)) := by
  unfold script
  rw [h]
  rfl

/-- What is done with a converter comes from what each file has alone. -/
theorem perform_script_of_ok (h : Converter.ofConfig
    (settings.conversion.withMode request.mode) currentYear = .ok c) (outside : Outside) :
    let found := request.files.flatMap (c.findings outside.read)
    let added := Act.append (request.report.getD settings.reportPath)
      (Report.render (Diagnostics.fresh.emitAll found).1)
    (request.script settings currentYear).perform outside =
      match allOutcomes (request.files.map fun path => (path, c.result outside.read path)) with
      | .error (path, cause) => ([.read request.files, added], some (.notConverted path cause))
      | .ok outcomes =>
        let failed := outcomes.countP Outcome.validationFailed
        ([.read request.files, .print (printedOutcomes request.json outcomes), added],
          if failed = 0 then none else some (.logsFailed failed outcomes.length)) := by
  intro found added
  let contents := fun path =>
    if path ∈ request.files then outside.read path else .error .notFound
  have hcontents : ∀ path ∈ request.files, contents path = outside.read path :=
    fun path hpath => if_pos hpath
  obtain ⟨hentries, hresults⟩ := c.convertFiles_eq outside.read .fresh request.files
  rw [← Converter.convertFiles_congr hcontents] at hentries hresults
  have hreport : Report.render (c.convertFiles contents .fresh request.files).1 =
      Report.render (Diagnostics.fresh.emitAll found).1 := by
    apply Report.render_congr
    rw [hentries, Diagnostics.entries_emitAll]
  unfold script
  rw [h]
  simp only [Script.perform]
  rw [hresults, hreport]
  cases allOutcomes (request.files.map fun path => (path, c.result outside.read path)) <;> rfl

/-- **What converting files does**, in three cases, and the same whatever comes of adding the
    report. -/
theorem perform_script (request : ConvertRequest) (settings : Settings) (currentYear : Int)
    (read : String → Except FileError ByteArray) :
    let files := request.files
    let config := settings.conversion.withMode request.mode
    let performed := fun deliver =>
      (request.script settings currentYear).perform { read, deliver }
    -- The rules are no rules: nothing is read, printed or added.
    (∃ fault, Converter.ofConfig config currentYear = .error fault ∧
        (CommandError.badTable fault).chain.head? = some "invalid rule configuration" ∧
        ∀ deliver, performed deliver = ([], some (.badTable fault))) ∨
      ∃ c, Converter.ofConfig config currentYear = .ok c ∧
        let found := files.flatMap fun path => (c.convertFile read path .fresh).1.entries
        let report := Report.render (Diagnostics.fresh.emitAll found).1
        let reportPath := request.report.getD settings.reportPath
        -- Some file cannot be read to its end: the report is added, and the first one is named.
        ((∃ before path after cause, files = before ++ path :: after ∧
            (∀ earlier ∈ before, ¬ IsUnreadable read earlier) ∧ IsUnreadable read path ∧
            (c.convertFile read path .fresh).2 = .error cause ∧
            let failure := CommandError.notConverted path cause
            failure.chain.head? = some ("failed to convert " ++ path) ∧
            ∀ deliver, performed deliver =
              ([.read files, .append reportPath report], some failure)) ∨
          -- All files are converted: what they have become is printed before the report is added.
          ∃ outcomes, (∀ path ∈ files, ¬ IsUnreadable read path) ∧
            List.Forall₂ (fun path outcome => (c.convertFile read path .fresh).2 = .ok outcome)
              files outcomes ∧
            outcomes.map Outcome.source = files ∧
            let printed :=
              if request.json then Json.pretty (.array (outcomes.map Outcome.summaryObject)) ++ "\n"
              else String.join (outcomes.flatMap Outcome.summaryLines)
            let failed := outcomes.countP Outcome.validationFailed
            let failure := CommandError.logsFailed failed outcomes.length
            failure.chain = [s!"{failed} of {outcomes.length} files failed validation"] ∧
            ∀ deliver, performed deliver =
              ([.read files, .print printed, .append reportPath report],
               if failed = 0 then none else some failure)) := by
  intro files config performed
  cases hconfig : Converter.ofConfig config currentYear with
  | error fault =>
    refine .inl ⟨fault, rfl, rfl, ?_⟩
    intro deliver
    exact perform_script_of_error hconfig _
  | ok c =>
    refine .inr ⟨c, rfl, ?_⟩
    intro found report reportPath
    have hperformed := fun deliver => perform_script_of_ok hconfig { read, deliver }
    rcases allOutcomes_map (c.result read) request.files with
      ⟨before, path, after, cause, hcut, hbefore, hbad, hall⟩ | ⟨outcomes, hsome, hok, hall⟩
    · simp only [hall] at hperformed
      refine .inl ⟨before, path, after, cause, hcut, ?_, ?_, hbad, rfl, hperformed⟩
      · intro earlier hearlier
        exact Converter.not_isUnreadable_iff.mpr (hbefore earlier hearlier)
      · exact Converter.exists_result_error_iff.mp ⟨cause, hbad⟩
    · simp only [hall, printedOutcomes_eq] at hperformed
      refine .inr ⟨outcomes, ?_, hok, Converter.sources_of_results hok, rfl, hperformed⟩
      intro path hpath
      exact Converter.not_isUnreadable_iff.mpr (hsome path hpath)

/-- Files with nothing in them, and between them one that is not there. -/
example :
    let settings : Settings := { reportPath := "report.txt" }
    let read : String → Except FileError ByteArray := fun path =>
      if path = "b.txt" then .error .notFound else .ok .empty
    let performed := fun files => (({ files } : ConvertRequest).script settings 2025).perform
      { read, deliver := fun _ _ => .notOpened "disk full" }
    let added := Act.append "report.txt" "No diagnostics.\n"
    performed ["a.txt", "c.txt"] =
        ([.read ["a.txt", "c.txt"],
          .print "a.txt: 0 days, 0 diagnostics [ok]\nc.txt: 0 days, 0 diagnostics [ok]\n", added],
         none) ∧
      performed ["a.txt", "b.txt", "c.txt"] =
        ([.read ["a.txt", "b.txt", "c.txt"], added],
         some (.notConverted "b.txt" { source := "b.txt", cause := .notFound })) := by
  decide +kernel

end ConvertRequest

end Daybook
