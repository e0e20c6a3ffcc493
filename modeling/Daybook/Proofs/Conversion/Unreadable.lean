/-
  Daybook/Proofs/Conversion/Unreadable.lean
  =========================================
  **Logs that are no text.**  A conversion fails just when the bytes of its log are no
  text as a whole.  Its run has then gained what the lines before the first bad one
  have raised, and nothing else: the day still open is not ended, and no records are
  validated (`convert_unreadable`).
-/
import Daybook.Proofs.Conversion.Run
import Daybook.Proofs.Scan.Unfinished
import Daybook.Proofs.Text.Lines

namespace Daybook.Converter

open Daybook.Text

variable {c : Converter} {name : String} {bytes : ByteArray} {run : Diagnostics}

theorem read_of_not_complete (h : (readLines bytes).complete = false) :
    c.read name bytes =
      ((({} : Scanner).steps (c.scanSetup name) 1 (readLines bytes).lines).2.2, none) := by
  simp [read, h]

theorem exists_error_iff :
    (∃ e, (c.convert name bytes run).2 = .error e) ↔ ¬ bytes.IsValidUTF8 := by
  rw [← complete_readLines_iff, convert_eq]
  cases hcomplete : (readLines bytes).complete with
  | true => simp [read, hcomplete]
  | false => simp [read, hcomplete]

/-- **A conversion fails when its log is no text, and keeps what it has found up to there.**  The
    run gains what the lines before the first bad one have raised: stray lines, date lines and the
    lines of days, and the headers that are missing in days closed by a later date line.  Nothing is
    said about the end of the day still open or about the consistency of records. -/
theorem convert_unreadable (c : Converter) (name : String) (bytes : ByteArray)
    (run : Diagnostics) :
    let setup := c.scanSetup name
    let result := c.convert name bytes run
    ((∃ e, result.2 = .error e) ↔ ¬ bytes.IsValidUTF8) ∧
      ∀ e, result.2 = .error e →
        e = { source := name, cause := .notText } ∧
        ∃ lines, StopsAfter (byteLines [] bytes.data.toList) lines ∧
          let log := logLines setup.table 1 lines
          let found := (({} : Scanner).steps setup 1 lines).2.2
          result.1 = (run.emitAll found).1 ∧
          result.1.entries = run.entries ++ found ∧
          found = strayFindings setup (log.takeWhile fun l => !l.isDate) ++
            (places log).flatMap (Place.raised setup) ∧
          withCode .missingHeader found =
            (((setup.openings lines).filter Opening.isClosed).flatMap fun o =>
              withCode .missingHeader (o.read setup).2) ∧
          ∀ d ∈ found, d.isLogical = false := by
  intro setup result
  refine ⟨exists_error_iff, ?_⟩
  intro e he
  have hinvalid : ¬ bytes.IsValidUTF8 := exists_error_iff.mp ⟨e, he⟩
  rw [← complete_readLines_iff, Bool.not_eq_true] at hinvalid
  have hresult := c.convert_eq name bytes run
  rw [read_of_not_complete hinvalid] at hresult
  have herror : e = { source := name, cause := .notText } := by
    simp only [result, hresult] at he
    exact (Except.error.inj he).symm
  refine ⟨herror, (readLines bytes).lines, stopsAfter_of_not_complete hinvalid, ?_⟩
  intro log found
  have hrun : result.1 = (run.emitAll found).1 := congrArg Prod.fst hresult
  refine ⟨hrun, ?_, findings_steps_start setup _, missingHeader_steps setup _, ?_⟩
  · rw [hrun, Diagnostics.entries_emitAll]
  · intro d hd
    exact isLogical_of_mem_steps hd

/-- A character that a line feed cuts in two, behind a closed day and in an open one. -/
theorem convert_unreadable_cut_character :
    let c : Converter := {
      table := {}, validation := {}, scope := .month, dayStart := .midnight,
      fallbackYear := 2025, linksSleep := true }
    let bytes := "2025_01_15\n0900 x\n2025_01_16\n0900 ".toUTF8 ++ ⟨#[0xC3, 0x0A, 0xA9, 0x0A]⟩
    let earlier := Diagnostic.ofCode .noDateAtStart 9 "content before the first date line"
    let run := (Diagnostics.fresh.emit earlier).1
    let result := c.convert "log.txt" bytes run
    let error : ReadError := { source := "log.txt", cause := .notText }
    result.2 = .error error ∧ ¬ bytes.IsValidUTF8 ∧
      ∃ lines, StopsAfter (byteLines [] bytes.data.toList) lines ∧
        result.1.entries =
          run.entries ++ (({} : Scanner).steps (c.scanSetup "log.txt") 1 lines).2.2 ∧
        result.1.entries.map (fun d => (d.line, d.code)) =
          [(9, .noDateAtStart), (2, .unrecognizedActivity), (1, .missingHeader),
           (1, .missingHeader), (1, .missingHeader)] := by
  intro c bytes earlier run result error
  have herror : result.2 = .error error := by decide +kernel
  obtain ⟨hfails, hstops⟩ := convert_unreadable c "log.txt" bytes run
  obtain ⟨-, lines, hlines, -, hentries, -⟩ := hstops error herror
  refine ⟨herror, hfails.mp ⟨error, herror⟩, lines, hlines, hentries, ?_⟩
  decide +kernel

end Daybook.Converter
