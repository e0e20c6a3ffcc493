/-
  Daybook/Proofs/Diagnostics/Calls.lean
  =====================================
  **What a collector has been told.**  A collector is changed by calls that add a
  finding, add those of another collector, or reset it.  The log of the calls made
  so far decides what it holds, what it has shown and what every call returned:
  each is read off the calls since the last reset (`Accounts`).  One call keeps
  that (`Accounts.perform`), so it holds after any calls, and after those that
  several threads make in turns, for these are calls in some order as well
  (`performAll_accounts`).
-/
import Daybook.Proofs.Diagnostics
import Mathlib.Algebra.Ring.Nat
import Mathlib.Data.List.DropRight
import Mathlib.Logic.Relation

namespace Daybook.Diagnostics

/-! ### Calls -/

inductive Call where
  | emit (d : Diagnostic)
  | absorb (other : Diagnostics)
  | reset

inductive Answer where
  /-- Whether the message of a finding was news. -/
  | first (news : Bool)
  /-- How many messages were news. -/
  | count (news : Nat)
  | done

/-- A call that was made, with what it returned and what was shown meanwhile. -/
structure Event where
  call : Call
  answer : Answer
  shown : List Diagnostic

def Call.isReset : Call → Bool
  | .emit _ | .absorb _ => false
  | .reset => true

def Call.added : Call → List Diagnostic
  | .emit d => [d]
  | .absorb other => other.entries
  | .reset => []

def Answer.news : Answer → Nat
  | .first news => if news then 1 else 0
  | .count news => news
  | .done => 0

def answered (c : Diagnostics) : Call → Diagnostics × Answer
  | .emit d =>
    let (after, news) := c.emit d
    (after, .first news)
  | .absorb other =>
    let (after, news) := c.absorb other
    (after, .count news)
  | .reset => (c.reset, .done)

def perform (c : Diagnostics) (call : Call) : Diagnostics × Event :=
  let (after, answer) := c.answered call
  (after, { call, answer, shown := after.shown.drop c.shown.length })

def performAll (c : Diagnostics) : List Call → Diagnostics × List Event
  | [] => (c, [])
  | call :: rest =>
    let (next, event) := c.perform call
    let (last, log) := next.performAll rest
    (last, event :: log)

theorem performAll_concat (c : Diagnostics) (calls : List Call) (call : Call) :
    c.performAll (calls ++ [call]) =
      (((c.performAll calls).1.perform call).1,
        (c.performAll calls).2 ++ [((c.performAll calls).1.perform call).2]) := by
  induction calls generalizing c with
  | nil => rfl
  | cons first rest ih =>
    rw [List.cons_append, performAll, performAll]
    dsimp only
    rw [ih, List.cons_append]

theorem calls_performAll (c : Diagnostics) (calls : List Call) :
    (c.performAll calls).2.map Event.call = calls := by
  induction calls generalizing c with
  | nil => rfl
  | cons first rest ih =>
    rw [performAll, List.map_cons, ih]
    rfl

/-! ### What a log says -/

def sinceReset (log : List Event) : List Event := log.rtakeWhile fun event => !event.call.isReset

/-- What the calls since the last reset have added. -/
def stored (log : List Event) : List Diagnostic :=
  (sinceReset log).flatMap fun event => event.call.added

/-- The first finding of each message. -/
def firstOfEach : List Diagnostic → List Diagnostic
  | [] => []
  | d :: rest => d :: (firstOfEach rest).filter fun other => other.message ≠ d.message

/-- What a call returns after a log. -/
def answerAfter (log : List Event) : Call → Answer
  | .emit d => .first (d.message ∉ (stored log).map Diagnostic.message)
  | .absorb other =>
    .count ((other.entries.map Diagnostic.message).toFinset \
      ((stored log).map Diagnostic.message).toFinset).card
  | .reset => .done

/-- Whether a collector is what a log says. -/
structure Accounts (live : Bool) (log : List Event) (c : Diagnostics) : Prop where
  entries : c.entries = stored log
  seen : ∀ message, message ∈ c.seen ↔ message ∈ (stored log).map Diagnostic.message
  nodup : c.seen.Nodup
  shown : (sinceReset log).flatMap Event.shown = if live then firstOfEach (stored log) else []
  isLive : c.live = live
  news : ((sinceReset log).map fun event => event.answer.news).sum =
    ((stored log).map Diagnostic.message).toFinset.card

theorem sinceReset_of_reset {event : Event} (log : List Event)
    (h : event.call.isReset = true) : sinceReset (log ++ [event]) = [] := by
  unfold sinceReset
  rw [List.rtakeWhile_concat_neg]
  simp [h]

theorem sinceReset_of_not_reset {event : Event} (log : List Event)
    (h : event.call.isReset = false) : sinceReset (log ++ [event]) = sinceReset log ++ [event] := by
  unfold sinceReset
  rw [List.rtakeWhile_concat_pos]
  simp [h]

theorem stored_of_not_reset {event : Event} (log : List Event)
    (h : event.call.isReset = false) :
    stored (log ++ [event]) = stored log ++ event.call.added := by
  unfold stored
  rw [sinceReset_of_not_reset log h, List.flatMap_append, List.flatMap_singleton]

/-- What comes later is a first finding unless its message came before. -/
theorem firstOfEach_append (ds es : List Diagnostic) :
    firstOfEach (ds ++ es) =
      firstOfEach ds ++
        (firstOfEach es).filter fun d => d.message ∉ ds.map Diagnostic.message := by
  induction ds with
  | nil => simp [firstOfEach]
  | cons d rest ih =>
    simp only [List.cons_append, firstOfEach, ih, List.filter_append, List.filter_filter]
    congr 2
    apply List.filter_congr
    intro other _
    simp [not_or, Bool.decide_and]

/-! ### What a call does -/

theorem live_emitAll (c : Diagnostics) (ds : List Diagnostic) : (c.emitAll ds).1.live = c.live := by
  induction ds generalizing c with
  | nil => rfl
  | cons d rest ih => exact ih (c.emit d).1

theorem shown_emit (c : Diagnostics) (d : Diagnostic) :
    (c.emit d).1.shown = c.shown ++ if c.live ∧ d.message ∉ c.seen then [d] else [] := by
  by_cases hseen : d.message ∈ c.seen
  · simp [emit, isNews, hseen]
  · cases hlive : c.live with
    | true => simp [emit, isNews, hseen, hlive]
    | false => simp [emit, isNews, hseen, hlive]

/-- A live collector shows the first finding of each message that it has not seen. -/
theorem shown_emitAll (c : Diagnostics) (ds : List Diagnostic) :
    (c.emitAll ds).1.shown =
      c.shown ++ if c.live then (firstOfEach ds).filter fun d => d.message ∉ c.seen else [] := by
  induction ds generalizing c with
  | nil => simp [emitAll, firstOfEach]
  | cons d rest ih =>
    have hrest : (c.emitAll (d :: rest)).1.shown = _ := ih (c.emit d).1
    have hlive : (c.emit d).1.live = c.live := rfl
    rw [hrest, hlive, shown_emit, seen_emit, List.append_assoc]
    congr 1
    cases c.live with
    | false => simp
    | true =>
      simp only [firstOfEach, List.filter_cons, List.filter_filter, true_and, if_true,
        decide_eq_true_eq]
      by_cases hseen : d.message ∈ c.seen
      · rw [if_pos hseen, if_neg (not_not_intro hseen), if_neg (not_not_intro hseen)]
        apply List.filter_congr
        intro other _
        -- a message that is not seen is none that is
        by_cases hother : other.message = d.message
        · simp [hother, hseen]
        · simp [hother]
      · rw [if_neg hseen, if_pos hseen, if_pos hseen, List.singleton_append]
        congr 1
        apply List.filter_congr
        intro other _
        simp [not_or, Bool.decide_and, Bool.and_comm]

theorem Accounts.emitAll {live : Bool} {log : List Event} {c : Diagnostics}
    (h : Accounts live log c) {event : Event} (hreset : event.call.isReset = false)
    (hshown : event.shown = (c.emitAll event.call.added).1.shown.drop c.shown.length)
    (hnews : event.answer.news = (c.emitAll event.call.added).2) :
    Accounts live (log ++ [event]) (c.emitAll event.call.added).1 := by
  have hstored := stored_of_not_reset log hreset
  have hsince := sinceReset_of_not_reset log hreset
  have hkept : c.Kept := ⟨h.nodup, by rw [h.entries]; exact h.seen⟩
  have hafter := hkept.emitAll event.call.added
  have hentries : (c.emitAll event.call.added).1.entries = stored (log ++ [event]) := by
    rw [Diagnostics.entries_emitAll, h.entries, hstored]
  constructor
  case entries => exact hentries
  case seen =>
    rw [← hentries]
    exact hafter.mem_seen
  case nodup => exact hafter.nodup
  case isLive =>
    rw [live_emitAll]
    exact h.isLive
  case shown =>
    have hnew : event.shown =
        if live then (firstOfEach event.call.added).filter fun d => d.message ∉ c.seen else [] := by
      rw [hshown, shown_emitAll, List.drop_left, h.isLive]
    rw [hsince, hstored, List.flatMap_append, List.flatMap_singleton, h.shown, hnew,
      firstOfEach_append]
    cases live with
    | false => rfl
    | true =>
      simp only [if_true, h.seen]
  case news =>
    have hbefore := hkept.length_seen
    have hlength := hafter.length_seen
    have hcount := c.news_emitAll event.call.added
    rw [h.entries] at hbefore
    rw [hentries] at hlength
    rw [hsince, List.map_append, List.sum_append, h.news, List.map_singleton, List.sum_singleton,
      hnews]
    omega

/-- As many messages are news as there are different ones that were not there. -/
theorem Kept.news_emitAll {c : Diagnostics} (h : c.Kept) (ds : List Diagnostic) :
    (c.emitAll ds).2 =
      ((ds.map Diagnostic.message).toFinset \
        (c.entries.map Diagnostic.message).toFinset).card := by
  have hbefore := h.length_seen
  have hafter := (h.emitAll ds).length_seen
  have hcount := c.news_emitAll ds
  rw [entries_emitAll, List.map_append, List.toFinset_append, Finset.union_comm,
    ← Finset.card_sdiff_add_card] at hafter
  omega

/-- **One call keeps what the log says**, and what it returns is what the log says. -/
theorem Accounts.perform {live : Bool} {log : List Event} {c : Diagnostics}
    (h : Accounts live log c) (call : Call) :
    Accounts live (log ++ [(c.perform call).2]) (c.perform call).1 ∧
      (c.perform call).2.answer = answerAfter log call := by
  have hkept : c.Kept := ⟨h.nodup, by rw [h.entries]; exact h.seen⟩
  cases call with
  | emit d =>
    constructor
    · exact h.emitAll rfl rfl (Nat.zero_add _).symm
    · have hnews : (c.emit d).2 = decide (d.message ∉ c.seen) := by
        simp [emit, isNews]
      simp only [h.seen] at hnews
      exact congrArg Answer.first hnews
  | absorb other =>
    constructor
    · exact h.emitAll rfl rfl rfl
    · have hnews := hkept.news_emitAll other.entries
      rw [h.entries] at hnews
      exact congrArg Answer.count hnews
  | reset =>
    have hsince : sinceReset (log ++ [(c.perform .reset).2]) = [] := sinceReset_of_reset log rfl
    have hstored : stored (log ++ [(c.perform .reset).2]) = [] := by
      unfold stored
      rw [hsince, List.flatMap_nil]
    constructor
    · constructor
      case entries => exact hstored.symm
      case seen =>
        intro message
        rw [hstored]
        rfl
      case nodup => exact List.nodup_nil
      case shown =>
        rw [hsince, hstored]
        cases live with
        | false => rfl
        | true => rfl
      case isLive => exact h.isLive
      case news =>
        rw [hsince, hstored]
        rfl
    · rfl

theorem accounts_new (live : Bool) : Accounts live [] { live } where
  entries := rfl
  seen := by
    intro message
    rfl
  nodup := List.nodup_nil
  shown := by cases live <;> rfl
  isLive := rfl
  news := rfl

/-- What every call of a log returned is what the log before it says. -/
def Answers (log : List Event) : Prop :=
  ∀ earlier event later, log = earlier ++ event :: later →
    event.answer = answerAfter earlier event.call

theorem Answers.concat {log : List Event} (h : Answers log) {event : Event}
    (hevent : event.answer = answerAfter log event.call) : Answers (log ++ [event]) := by
  intro earlier other later hlog
  rcases cut_concat hlog with ⟨rfl, rfl⟩ | ⟨rest, hlog⟩
  · exact hevent
  · exact h earlier other rest hlog

/-- **Any calls leave a collector that is what their log says.** -/
theorem accounts_performAll (live : Bool) (calls : List Call) :
    Accounts live (performAll { live } calls).2 (performAll { live } calls).1 ∧
      Answers (performAll { live } calls).2 := by
  induction calls using List.reverseRecOn with
  | nil =>
    refine ⟨accounts_new live, ?_⟩
    intro earlier event later hlog
    exact absurd hlog.symm (by simp [performAll])
  | append_singleton calls call ih =>
    obtain ⟨haccounts, hanswers⟩ := ih
    obtain ⟨hnext, hanswer⟩ := haccounts.perform call
    rw [performAll_concat]
    exact ⟨hnext, hanswers.concat hanswer⟩

/-! ### Threads -/

/-- A collector that threads share: the calls that each thread has still to make, and the log of
    those that were made, each with the number of its thread. -/
structure Sharing where
  collector : Diagnostics
  waiting : Nat → List Call
  log : List (Nat × Event)

namespace Sharing

def start (live : Bool) (programs : Nat → List Call) : Sharing :=
  { collector := { live }, waiting := programs, log := [] }

/-- One thread makes its next call, and no other call comes between. -/
inductive Step : Sharing → Sharing → Prop where
  | call (s : Sharing) (thread : Nat) (call : Call) (rest : List Call)
      (hnext : s.waiting thread = call :: rest) :
    Step s {
      collector := (s.collector.perform call).1
      waiting := Function.update s.waiting thread rest
      log := s.log ++ [(thread, (s.collector.perform call).2)] }

def made (s : Sharing) : List Call := s.log.map fun entry => entry.2.call

/-- The calls that a thread has made, in their order. -/
def madeBy (s : Sharing) (thread : Nat) : List Call :=
  (s.log.filter fun entry => entry.1 = thread).map fun entry => entry.2.call

/-- What holds at all times: each thread makes the calls of its program in their order, and the
    collector and the log are those of the calls that were made. -/
structure Serial (live : Bool) (programs : Nat → List Call) (s : Sharing) : Prop where
  programs : ∀ thread, s.madeBy thread ++ s.waiting thread = programs thread
  collector : s.collector = (performAll { live } s.made).1
  log : s.log.map Prod.snd = (performAll { live } s.made).2

theorem serial_start (live : Bool) (programs : Nat → List Call) :
    Serial live programs (start live programs) where
  programs := by
    intro thread
    rfl
  collector := rfl
  log := rfl

theorem Serial.step {live : Bool} {programs : Nat → List Call} {s s' : Sharing}
    (h : Serial live programs s) (hstep : Step s s') : Serial live programs s' := by
  obtain ⟨thread, call, rest, hnext⟩ := hstep
  have hcall : (s.collector.perform call).2.call = call := rfl
  have hmade : (s.log ++ [(thread, (s.collector.perform call).2)]).map
      (fun entry => entry.2.call) = s.made ++ [call] := by
    rw [List.map_append, List.map_singleton, hcall]
    rfl
  constructor
  case programs =>
    intro other
    have hbefore := h.programs other
    by_cases hother : thread = other
    · subst hother
      simp only [madeBy, List.filter_append, List.map_append] at hbefore ⊢
      rw [← hbefore, hnext]
      simp [hcall]
    · simp only [madeBy, List.filter_append, List.map_append] at hbefore ⊢
      rw [← hbefore]
      simp [hother, Function.update_of_ne (Ne.symm hother)]
  case collector =>
    simp only [made]
    rw [hmade, performAll_concat, ← h.collector]
  case log =>
    simp only [made]
    rw [hmade, performAll_concat, ← h.collector, ← h.log, List.map_append]
    rfl

theorem Serial.steps {live : Bool} {programs : Nat → List Call} {s s' : Sharing}
    (h : Serial live programs s) (hsteps : Relation.ReflTransGen Step s s') :
    Serial live programs s' := by
  induction hsteps with
  | refl => exact h
  | tail _ hstep ih => exact ih.step hstep

end Sharing

/-- **What a collector has been told decides what it is.**  After any calls on a new collector it
    holds what the calls since the last reset have added, in order and with repeats, it has seen
    just the messages of those, the first finding of each message has been shown if it is live, and
    the calls have returned how many messages were news, each its part of all the different ones.
    Calls that threads make on a collector that they share are such calls in some order, which for
    each thread is its own. -/
theorem performAll_accounts (live : Bool) :
    (∀ calls : List Call,
      let told := performAll { live } calls
      told.2.map Event.call = calls ∧ Accounts live told.2 told.1 ∧ Answers told.2) ∧
      ∀ (programs : Nat → List Call) (s : Sharing),
        Relation.ReflTransGen Sharing.Step (.start live programs) s →
          (∀ thread, s.madeBy thread ++ s.waiting thread = programs thread) ∧
            performAll { live } s.made = (s.collector, s.log.map Prod.snd) ∧
            Accounts live (s.log.map Prod.snd) s.collector ∧ Answers (s.log.map Prod.snd) := by
  constructor
  · intro calls told
    exact ⟨calls_performAll _ calls, accounts_performAll live calls⟩
  · intro programs s hsteps
    obtain ⟨hprograms, hcollector, hlog⟩ := (Sharing.serial_start live programs).steps hsteps
    refine ⟨hprograms, ?_, ?_⟩
    · rw [hcollector, hlog]
    · rw [hcollector, hlog]
      exact accounts_performAll live s.made

/-- Two threads, of which one resets the collector between the calls of the other: what was shown
    before is shown again, and of the three findings absorbed last one message is news. -/
theorem performAll_accounts_two_threads :
    let found := Diagnostic.ofCode .unrecognizedActivity 1
    let other := (quiet.emitAll [found "b", found "b", found "c"]).1
    let programs : Nat → List Call
      | 0 => [.emit (found "a"), .reset, .absorb other]
      | 1 => [.emit (found "a"), .emit (found "b")]
      | _ => []
    ∃ s, Relation.ReflTransGen Sharing.Step (.start true programs) s ∧
      s.madeBy 0 = programs 0 ∧ s.madeBy 1 = programs 1 ∧
      s.log.map (fun entry => (entry.1, entry.2.answer.news, entry.2.shown)) =
        [(0, 1, [found "a"]), (1, 0, []), (0, 0, []), (1, 1, [found "b"]), (0, 1, [found "c"])] ∧
      Accounts true (s.log.map Prod.snd) s.collector ∧ Answers (s.log.map Prod.snd) := by
  intro found other programs
  have hsteps : Relation.ReflTransGen Sharing.Step (.start true programs) _ :=
    .head (.call _ 0 _ _ rfl) <| .head (.call _ 1 _ _ rfl) <| .head (.call _ 0 _ _ rfl) <|
      .head (.call _ 1 _ _ rfl) <| .head (.call _ 0 _ _ rfl) .refl
  obtain ⟨-, -, haccounts, hanswers⟩ := (performAll_accounts true).2 programs _ hsteps
  exact ⟨_, hsteps, rfl, rfl, by decide +kernel, haccounts, hanswers⟩

end Daybook.Diagnostics
