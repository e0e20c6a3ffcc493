/-
  Daybook/Proofs/Conversion/Run.lean
  ==================================
  **Conversions in one run.**  What is found in a log depends on the log alone
  (`read`), and a conversion adds just that to the findings of its run
  (`convert_eq`).  Logs that are converted one after the other in one run
  therefore have the results that each of them has in a run of its own, whatever
  the run held before (`turns_standAlone`).
-/
import Daybook.Conversion.Converter
import Daybook.Proofs.Validation.Run

namespace Daybook.Converter

open Daybook.Text

/-! ### One log -/

/-- What is found in a log, in the order in which it is found, and the records of its days unless
    some line is no text. -/
def read (c : Converter) (name : String) (bytes : ByteArray) :
    List Diagnostic × Option (List DailyLog) :=
  let setup := c.scanSetup name
  let text := readLines bytes
  if text.complete then
    let (days, findings) := setup.scan text.lines
    let logs := c.records days
    (findings ++ c.validate name logs, some logs)
  else
    let (_, _, findings) := ({} : Scanner).steps setup 1 text.lines
    (findings, none)

theorem validateIn_eq (c : Converter) (name : String) (logs : List DailyLog) (run : Diagnostics) :
    c.validateIn name logs run =
      ((run.emitAll (c.validate name logs)).1, (c.validate name logs).length) :=
  (c.validator name).checkIn_eq run c.scope logs

/-- **A run gains what is found in a log, and the outcome is cut out of it again.** -/
theorem convert_eq (c : Converter) (name : String) (bytes : ByteArray) (run : Diagnostics) :
    c.convert name bytes run =
      ((run.emitAll (c.read name bytes).1).1,
        match (c.read name bytes).2 with
        | some logs =>
          .ok { source := name, logs, diagnostics := Diagnostic.sort (c.read name bytes).1 }
        | none => .error { source := name, cause := .notText }) := by
  unfold convert read
  by_cases hcomplete : (readLines bytes).complete = true
  · simp only [hcomplete, if_true, validateIn_eq, ← Diagnostics.emitAll_append,
      Diagnostics.since_emitAll]
  · simp only [hcomplete, if_false, Bool.false_eq_true]

/-! ### One log after the other -/

/-- One of several conversions: the log, the run before and after it, and what came out. -/
structure Turn where
  name : String
  bytes : ByteArray
  before : Diagnostics
  after : Diagnostics
  result : Except ReadError Outcome

/-- Converts logs one after the other in one run. -/
def turns (c : Converter) (run : Diagnostics) : List (String × ByteArray) → List Turn
  | [] => []
  | (name, bytes) :: rest =>
    let (after, result) := c.convert name bytes run
    { name, bytes, before := run, after, result } :: c.turns after rest

variable {c : Converter} {run : Diagnostics} {inputs : List (String × ByteArray)} {turn : Turn}

theorem turns_cons (c : Converter) (run : Diagnostics) (name : String) (bytes : ByteArray)
    (rest : List (String × ByteArray)) :
    c.turns run ((name, bytes) :: rest) =
      { name, bytes, before := run, after := (c.convert name bytes run).1,
        result := (c.convert name bytes run).2 } :: c.turns (c.convert name bytes run).1 rest := rfl

theorem logs_turns (c : Converter) (run : Diagnostics) (inputs : List (String × ByteArray)) :
    (c.turns run inputs).map (fun turn => (turn.name, turn.bytes)) = inputs := by
  induction inputs generalizing run with
  | nil => rfl
  | cons input rest ih =>
    obtain ⟨name, bytes⟩ := input
    rw [turns_cons, List.map_cons, ih]

theorem convert_of_mem_turns (h : turn ∈ c.turns run inputs) :
    c.convert turn.name turn.bytes turn.before = (turn.after, turn.result) := by
  induction inputs generalizing run with
  | nil => cases h
  | cons input rest ih =>
    obtain ⟨name, bytes⟩ := input
    rw [turns_cons] at h
    rcases List.mem_cons.mp h with rfl | h
    · rfl
    · exact ih h

/-- **Logs converted in one run stand for themselves.**  Whatever the run holds, live or quiet, each
    of them has the result that it has in a new run.  A log that is converted leaves what the run
    held as it was and adds what its outcome lists, in another order at most; the outcome lists it
    in order, and its report is that of the new run. -/
theorem turns_standAlone (c : Converter) (run : Diagnostics) (inputs : List (String × ByteArray))
    (live : Bool) :
    let alone := fun turn : Turn => c.convert turn.name turn.bytes { live }
    (c.turns run inputs).map (fun turn => (turn.name, turn.bytes)) = inputs ∧
      ∀ turn ∈ c.turns run inputs,
        turn.result = (alone turn).2 ∧
          ∀ outcome, turn.result = .ok outcome →
            (∃ added, turn.after.entries = turn.before.entries ++ added ∧
              added.Perm outcome.diagnostics) ∧
            outcome.diagnostics.Pairwise (fun a b => (compare a b).isLE = true) ∧
            outcome.report = Report.render (alone turn).1 := by
  intro alone
  refine ⟨logs_turns c run inputs, ?_⟩
  intro turn hturn
  have hconvert := convert_of_mem_turns hturn
  rw [convert_eq, Prod.mk.injEq] at hconvert
  obtain ⟨hafter, hresult⟩ := hconvert
  have hsame : turn.result = (alone turn).2 := by
    rw [← hresult]
    simp only [alone, convert_eq]
  refine ⟨hsame, ?_⟩
  intro outcome houtcome
  have hdiagnostics : outcome.diagnostics = Diagnostic.sort (c.read turn.name turn.bytes).1 := by
    rw [houtcome] at hresult
    split at hresult
    · obtain rfl := Except.ok.inj hresult
      rfl
    · cases hresult
  refine ⟨⟨(c.read turn.name turn.bytes).1, ?_, ?_⟩, ?_, ?_⟩
  · rw [← hafter, Diagnostics.entries_emitAll]
  · rw [hdiagnostics]
    exact (Diagnostic.perm_sort _).symm
  · rw [hdiagnostics]
    exact Diagnostic.pairwise_sort _
  · -- the outcome's own collector holds the same findings as the new run, in order
    apply Report.render_congr
    simp only [alone, convert_eq, Diagnostics.entries_emitAll, hdiagnostics]
    exact Diagnostic.perm_sort _

/-- A log that is converted twice in a run that is not new, with one in between that is no text. -/
theorem turns_standAlone_repeated :
    let c : Converter := {
      table := {}, validation := {}, scope := .month, dayStart := .midnight,
      fallbackYear := 2025, linksSleep := true }
    let bytes := "stray\n2025_01_15\n0700wake\n2300 x\n".toUTF8
    let broken : ByteArray := ⟨#[255]⟩
    let earlier := Diagnostic.ofCode .noDateAtStart 9 "content before the first date line"
    let run := (Diagnostics.fresh.emit earlier).1
    let alone := c.convert "a.txt" bytes .quiet
    ∃ turn ∈ c.turns run [("a.txt", bytes), ("b.txt", broken), ("a.txt", bytes)],
      turn.before.entries.length = 6 ∧ turn.after.entries.length = 11 ∧
      ∃ outcome, turn.result = .ok outcome ∧ turn.result = alone.2 ∧
        (∃ added, turn.after.entries = turn.before.entries ++ added ∧
          added.Perm outcome.diagnostics) ∧
        outcome.diagnostics.Pairwise (fun a b => (compare a b).isLE = true) ∧
        outcome.report = Report.render alone.1 := by
  intro c bytes broken earlier run alone
  let before := (c.convert "b.txt" broken (c.convert "a.txt" bytes run).1).1
  let last : Turn :=
    { name := "a.txt", bytes, before, after := (c.convert "a.txt" bytes before).1,
      result := (c.convert "a.txt" bytes before).2 }
  have hlast : last ∈ c.turns run [("a.txt", bytes), ("b.txt", broken), ("a.txt", bytes)] := by
    rw [turns_cons, turns_cons, turns_cons]
    exact List.mem_cons_of_mem _ (List.mem_cons_of_mem _ List.mem_cons_self)
  obtain ⟨hresult, hok⟩ := (turns_standAlone c run _ false).2 last hlast
  have hconverted : ∃ outcome, last.result = .ok outcome := by
    have hsome : (c.read "a.txt" bytes).2.isSome = true := by decide +kernel
    obtain ⟨logs, hlogs⟩ := Option.isSome_iff_exists.mp hsome
    simp only [last, convert_eq, hlogs]
    exact ⟨_, rfl⟩
  obtain ⟨outcome, houtcome⟩ := hconverted
  refine ⟨last, hlast, ?before, ?after, outcome, houtcome, hresult, hok outcome houtcome⟩
  case before => decide +kernel
  case after => decide +kernel

end Daybook.Converter
