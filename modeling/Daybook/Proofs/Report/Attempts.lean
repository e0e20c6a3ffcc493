/-
  Daybook/Proofs/Report/Attempts.lean
  ===================================
  **Reports that are kept, and those that are not.**  An attempt to keep the report
  adds the report of that moment at the end of its destination and nothing to the
  findings, or it fails, and then it adds one warning to the findings and nothing
  else (`Attempts`).  Over a whole run (`Tells`), every destination is what it was
  with all that was written to it behind, in order; and since each report is that of
  its moment, the reports after a failure count it (`performAll_reports`).
-/
import Daybook.Proofs.Diagnostics
import Daybook.Proofs.Files.Tree
import Daybook.Report
import Mathlib.Logic.Function.Basic

namespace Daybook.Report

/-! ### Requests -/

/-- Where reports are written: something open, by number, or the file at a place. -/
inductive Target where
  | sink (number : Nat)
  | file (place : List String)
deriving DecidableEq, Repr

/-- Findings, files, and what has been written to each of the open destinations. -/
structure Desk where
  findings : Diagnostics
  tree : FileTree
  sinks : Nat → ByteArray

/-- What can be asked for.  An attempt to keep the report comes with what the system makes of it. -/
inductive Request where
  | emit (d : Diagnostic)
  | persist (sink : Nat) (delivery : Delivery)
  | persistAt (path : String) (delivery : Delivery)
deriving DecidableEq, Repr

def Request.delivery? : Request → Option Delivery
  | .emit _ => none
  | .persist _ delivery | .persistAt _ delivery => some delivery

theorem Request.exists_emit {request : Request} (h : request.delivery? = none) :
    ∃ d, request = .emit d := by
  cases request with
  | emit d => exact ⟨d, rfl⟩
  | persist | persistAt => cases h

/-- A request that was made. -/
structure Event where
  request : Request
  /-- The report at that moment. -/
  report : String
  answer : Bool
  /-- What the findings gained. -/
  added : List Diagnostic
  /-- What was opened, if anything. -/
  reached : Option Target
deriving DecidableEq, Repr

namespace Event

/-- What a failure calls the destination. -/
def destination (event : Event) : String :=
  match event.request, event.reached with
  | .persistAt path _, none => path
  | _, _ => openDestination

/-- What was written to the destination. -/
def written (event : Event) : ByteArray :=
  match event.request.delivery? with
  | none => .empty
  | some delivery => delivery.bytes event.report

/-- Whether the findings gained a report that could not be kept. -/
def addsFailure (event : Event) : Bool :=
  match event.request with
  | .emit d => d.code == .reportWriteFailed
  | .persist _ _ | .persistAt _ _ => !event.answer

/-- Whether something was written to the file to which a path leads. -/
def leadsTo (event : Event) (t : FileTree) (path : String) : Bool :=
  match (t.locate path).toOption with
  | none => false
  | some place => event.reached = some (.file place)

/-- Whether what was opened is what the request names.  A file opens unless the system refuses it or
    the tree has no place for it. -/
def IsAimed (event : Event) (t : FileTree) : Prop :=
  match event.request with
  | .emit _ => event.reached = none
  | .persist sink _ => event.reached = some (.sink sink)
  | .persistAt path delivery =>
    (event.reached = none ∨ event.leadsTo t path = true) ∧
      (event.reached ≠ none ↔
        (∀ cause, delivery ≠ .notOpened cause) ∧ ∃ place, t.placeToAppend path = .ok place)

theorem leadsTo_congr {t t' : FileTree} (h : t.SameFolders t') (event : Event) (path : String) :
    event.leadsTo t' path = event.leadsTo t path := by
  rw [leadsTo, h.locate, leadsTo]

theorem IsAimed.congr {t t' : FileTree} (h : t.SameFolders t') {event : Event}
    (haimed : event.IsAimed t') : event.IsAimed t := by
  simpa only [IsAimed, leadsTo_congr h, h.placeToAppend] using haimed

end Event

namespace Desk

def content? (s : Desk) : Target → Option ByteArray
  | .sink number => some (s.sinks number)
  | .file place => s.tree.fileAt? place

def target? (s : Desk) : Request → Option Target
  | .emit _ => none
  | .persist sink _ => some (.sink sink)
  | .persistAt path delivery => (openAt s.tree path delivery).toOption.map .file

def carryOut (s : Desk) : Request → Desk × Bool
  | .emit d =>
    let (findings, news) := s.findings.emit d
    ({ s with findings }, news)
  | .persist sink delivery =>
    let (findings, ok) := persist s.findings delivery
    let content := s.sinks sink ++ delivery.bytes (render s.findings)
    ({ s with findings, sinks := Function.update s.sinks sink content }, ok)
  | .persistAt path delivery =>
    let ((findings, ok), tree) := persistAt s.findings s.tree path delivery
    ({ s with findings, tree }, ok)

def perform (s : Desk) (request : Request) : Desk × Event :=
  let (after, answer) := s.carryOut request
  (after, {
    request, report := render s.findings, answer
    added := after.findings.entries.drop s.findings.entries.length
    reached := s.target? request })

def performAll (s : Desk) : List Request → Desk × List Event
  | [] => (s, [])
  | request :: rest =>
    let (next, event) := s.perform request
    let (last, log) := next.performAll rest
    (last, event :: log)

theorem performAll_concat (s : Desk) (requests : List Request) (request : Request) :
    s.performAll (requests ++ [request]) =
      (((s.performAll requests).1.perform request).1,
        (s.performAll requests).2 ++ [((s.performAll requests).1.perform request).2]) := by
  induction requests generalizing s with
  | nil => rfl
  | cons first rest ih =>
    rw [List.cons_append, performAll, performAll]
    dsimp only
    rw [ih, List.cons_append]

end Desk

/-! ### One attempt -/

/-- Whether a finding tells that a report could not be kept at a destination. -/
structure IsFailure (destination : String) (d : Diagnostic) : Prop where
  code : d.code = .reportWriteFailed
  severity : d.severity = .warn
  line : d.line = 0
  message : ∃ cause : String, d.message =
    s!"could not write diagnostics report to {destination}: {cause}"

theorem isFailure_undelivered (destination cause : String) :
    IsFailure destination (undelivered destination cause) :=
  ⟨rfl, rfl, rfl, cause, rfl⟩

theorem settle_cases (c : Diagnostics) (destination : String) (delivery : Delivery) :
    (delivery = .complete ∧ settle c destination delivery = (c, true)) ∨
      delivery ≠ .complete ∧
        ∃ d, IsFailure destination d ∧ settle c destination delivery = ((c.emit d).1, false) := by
  cases delivery with
  | complete => exact .inl ⟨rfl, rfl⟩
  | notOpened cause | brokeOff _ cause | notFlushed cause =>
    exact .inr ⟨nofun, _, isFailure_undelivered destination cause, rfl⟩

theorem openAt_eq_ok_iff {t : FileTree} {path : String} {delivery : Delivery}
    {place : List String} :
    openAt t path delivery = .ok place ↔
      (∀ cause, delivery ≠ .notOpened cause) ∧ t.placeToAppend path = .ok place := by
  cases delivery with
  | notOpened cause => simp [openAt]
  | complete | brokeOff | notFlushed =>
    unfold openAt
    cases t.placeToAppend path <;> simp [Except.mapError]

theorem persistAt_of_error {t : FileTree} {path cause : String} {delivery : Delivery}
    (h : openAt t path delivery = .error cause) (c : Diagnostics) :
    persistAt c t path delivery = (settle c path (.notOpened cause), t) := by
  rw [persistAt, h]

theorem persistAt_of_ok {t : FileTree} {path : String} {delivery : Delivery} {place : List String}
    (h : openAt t path delivery = .ok place) (c : Diagnostics) :
    persistAt c t path delivery =
      (settle c openDestination delivery, t.appendAt place (delivery.bytes (render c))) := by
  rw [persistAt, h, persist]

namespace Desk

variable {s now : Desk} {request : Request} {delivery : Delivery} {event : Event}

/-- What is noted of a request. -/
theorem noted_of_perform (hperform : s.perform request = (now, event)) :
    event.request = request ∧ event.report = render s.findings ∧
      event.added = now.findings.entries.drop s.findings.entries.length ∧
      event.reached = s.target? request := by
  obtain ⟨rfl, rfl⟩ := Prod.mk.inj hperform
  exact ⟨rfl, rfl, rfl, rfl⟩

/-- **An attempt reaches its destination or it does not.**  In either case the findings are settled;
    only the destination that was reached changes. -/
theorem perform_cases (h : request.delivery? = some delivery)
    (hperform : s.perform request = (now, event)) :
    (∃ target, event.reached = some target ∧
        (now.findings, event.answer) = settle s.findings event.destination delivery ∧
        now.content? target =
          some ((s.content? target).getD .empty ++ delivery.bytes (render s.findings)) ∧
        (∀ other, other ≠ target → now.content? other = s.content? other) ∧
        s.tree.SameFolders now.tree) ∨
      event.reached = none ∧ now.tree = s.tree ∧ now.sinks = s.sinks ∧
        ∃ d, IsFailure event.destination d ∧
          (now.findings, event.answer) = ((s.findings.emit d).1, false) := by
  cases request with
  | emit d => cases h
  | persist sink given =>
    obtain rfl : given = delivery := Option.some.inj h
    obtain ⟨rfl, rfl⟩ := Prod.mk.inj hperform
    refine .inl ⟨.sink sink, rfl, rfl, ?_, ?_, .refl _⟩
    · exact congrArg some (Function.update_self ..)
    · intro other hother
      cases other with
      | file place => rfl
      | sink number =>
        refine congrArg some (Function.update_of_ne ?_ ..)
        rintro rfl
        exact hother rfl
  | persistAt path given =>
    obtain rfl : given = delivery := Option.some.inj h
    cases hopen : openAt s.tree path given with
    | error cause =>
      have hreached : s.target? (.persistAt path given) = none := by rw [target?, hopen]; rfl
      have hafter : s.carryOut (.persistAt path given) =
          ({ s with findings := (settle s.findings path (.notOpened cause)).1 },
            (settle s.findings path (.notOpened cause)).2) := by
        rw [carryOut, persistAt_of_error hopen]
      rw [perform, hafter, hreached] at hperform
      obtain ⟨rfl, rfl⟩ := Prod.mk.inj hperform
      exact .inr ⟨rfl, rfl, rfl, _, isFailure_undelivered path cause, rfl⟩
    | ok place =>
      have hfolder := (FileTree.placeToAppend_eq_ok_iff.mp (openAt_eq_ok_iff.mp hopen).2).2
      have hreached : s.target? (.persistAt path given) = some (.file place) := by
        rw [target?, hopen]
        rfl
      have hafter : s.carryOut (.persistAt path given) =
          ({ s with
              findings := (settle s.findings openDestination given).1
              tree := s.tree.appendAt place (given.bytes (render s.findings)) },
            (settle s.findings openDestination given).2) := by
        rw [carryOut, persistAt_of_ok hopen]
      rw [perform, hafter, hreached] at hperform
      obtain ⟨rfl, rfl⟩ := Prod.mk.inj hperform
      refine .inl ⟨.file place, rfl, rfl, ?_, ?_, FileTree.sameFolders_appendAt hfolder _⟩
      · exact (FileTree.fileAt?_appendAt hfolder _ place).trans (if_pos rfl)
      · intro other hother
        cases other with
        | sink number => rfl
        | file elsewhere =>
          refine (FileTree.fileAt?_appendAt hfolder _ elsewhere).trans (if_neg ?_)
          rintro rfl
          exact hother rfl

theorem isAimed_of_perform (hperform : s.perform request = (now, event)) :
    event.IsAimed s.tree := by
  obtain ⟨hrequest, -, -, hreached⟩ := noted_of_perform hperform
  rw [Event.IsAimed, hrequest]
  cases request with
  | emit d => exact hreached
  | persist sink delivery => exact hreached
  | persistAt path delivery =>
    rw [target?] at hreached
    cases hopen : openAt s.tree path delivery with
    | error cause =>
      rw [hopen] at hreached
      refine ⟨.inl hreached, iff_of_false (fun h => h hreached) ?_⟩
      rintro ⟨hsystem, place, hplace⟩
      rw [openAt_eq_ok_iff.mpr ⟨hsystem, hplace⟩] at hopen
      cases hopen
    | ok place =>
      rw [hopen] at hreached
      obtain ⟨hsystem, hplace⟩ := openAt_eq_ok_iff.mp hopen
      refine ⟨.inr ?_, iff_of_true (by simp [hreached, Except.toOption]) ⟨hsystem, place, hplace⟩⟩
      obtain ⟨hfile, -⟩ := FileTree.placeToAppend_eq_ok_iff.mp hplace
      rw [Event.leadsTo, FileTree.locate_of_locateFile hfile]
      exact decide_eq_true hreached

/-- What an attempt to keep the report does. -/
structure Attempts (s now : Desk) (event : Event) : Prop where
  aimed : event.IsAimed s.tree
  report : event.report = render s.findings
  answer : event.answer = true ↔ event.request.delivery? = some .complete ∧ event.reached ≠ none
  succeeded : event.answer = true → now.findings = s.findings ∧ event.added = [] ∧
    ∃ target, event.reached = some target ∧
      now.content? target = some ((s.content? target).getD .empty ++ event.report.toUTF8)
  failed : event.answer = false →
    ∃ d, IsFailure event.destination d ∧ now.findings = (s.findings.emit d).1 ∧ event.added = [d]
  hasErrors : now.findings.hasErrors = s.findings.hasErrors
  elsewhere : ∀ target, event.reached ≠ some target → now.content? target = s.content? target
  notOpened : event.reached = none → now.tree = s.tree ∧ now.sinks = s.sinks

theorem content?_congr (htree : now.tree = s.tree) (hsinks : now.sinks = s.sinks) :
    now.content? = s.content? := by
  funext target
  cases target with
  | sink number => exact congrArg some (congrFun hsinks number)
  | file place => rw [content?, htree, content?]

theorem hasErrors_emit_of_isFailure {destination : String} {d : Diagnostic}
    (h : IsFailure destination d) (c : Diagnostics) : (c.emit d).1.hasErrors = c.hasErrors := by
  simp [Diagnostics.hasErrors, Diagnostic.isError, h.severity]

/-- An attempt that failed, whether or not something was opened for it. -/
theorem attempts_of_failure {d : Diagnostic} (hd : IsFailure event.destination d)
    (hsettled : (now.findings, event.answer) = ((s.findings.emit d).1, false))
    (hperform : s.perform request = (now, event))
    (hincomplete : ¬(request.delivery? = some .complete ∧ event.reached ≠ none))
    (helsewhere : ∀ target, event.reached ≠ some target → now.content? target = s.content? target)
    (hnotOpened : event.reached = none → now.tree = s.tree ∧ now.sinks = s.sinks) :
    s.Attempts now event := by
  have haimed := isAimed_of_perform hperform
  obtain ⟨rfl, hreport, hadded, -⟩ := noted_of_perform hperform
  obtain ⟨hfindings, hanswer⟩ := Prod.mk.inj hsettled
  rw [hfindings, Diagnostics.entries_emit, List.drop_left] at hadded
  constructor
  case aimed => exact haimed
  case report => exact hreport
  case answer => exact iff_of_false (by simp [hanswer]) hincomplete
  case succeeded => simp [hanswer]
  case failed => exact fun _ => ⟨d, hd, hfindings, hadded⟩
  case hasErrors => rw [hfindings, hasErrors_emit_of_isFailure hd]
  case elsewhere => exact helsewhere
  case notOpened => exact hnotOpened

/-- **One attempt to keep the report.** -/
theorem attempts_of_perform (h : request.delivery? = some delivery)
    (hperform : s.perform request = (now, event)) : s.Attempts now event := by
  rcases perform_cases h hperform with ⟨target, hreached, hsettle, hcontent, hothers, -⟩ |
    ⟨hreached, htree, hsinks, d, hd, hfailed⟩
  · have helsewhere (other : Target) (hother : event.reached ≠ some other) :
        now.content? other = s.content? other := by
      apply hothers
      rintro rfl
      exact hother hreached
    have hopened : event.reached = none → now.tree = s.tree ∧ now.sinks = s.sinks := by
      rw [hreached]
      exact nofun
    rcases settle_cases s.findings event.destination delivery with
      ⟨rfl, hsettled⟩ | ⟨hne, d, hd, hsettled⟩
    · have haimed := isAimed_of_perform hperform
      obtain ⟨rfl, hreport, hadded, -⟩ := noted_of_perform hperform
      obtain ⟨hfindings, hanswer⟩ := Prod.mk.inj (hsettle.trans hsettled)
      rw [hfindings, List.drop_length] at hadded
      constructor
      case aimed => exact haimed
      case report => exact hreport
      case answer => simp [hanswer, h, hreached]
      case succeeded =>
        intro _
        refine ⟨hfindings, hadded, target, hreached, ?_⟩
        rw [hcontent, hreport]
        rfl
      case failed => simp [hanswer]
      case hasErrors => rw [hfindings]
      case elsewhere => exact helsewhere
      case notOpened => exact hopened
    · refine attempts_of_failure hd (hsettle.trans hsettled) hperform ?_ helsewhere hopened
      simp [h, hne]
  · refine attempts_of_failure hd hfailed hperform (by simp [hreached]) ?_ fun _ => ⟨htree, hsinks⟩
    intro other _
    rw [content?_congr htree hsinks]

end Desk

/-! ### A run -/

/-- What a request adds to the findings. -/
structure Event.Adds (event : Event) : Prop where
  emitted : ∀ d, event.request = .emit d → event.added = [d] ∧ event.reached = none
  succeeded : event.request.delivery? ≠ none → event.answer = true →
    event.added = [] ∧ event.request.delivery? = some .complete ∧ event.reached ≠ none
  failed : event.request.delivery? ≠ none → event.answer = false →
    ∃ d, IsFailure event.destination d ∧ event.added = [d]

theorem Event.Adds.countP_added {event : Event} (h : event.Adds) :
    (event.added.countP fun d => d.code == .reportWriteFailed) =
      if event.addsFailure then 1 else 0 := by
  cases hdelivery : event.request.delivery? with
  | none =>
    obtain ⟨d, hrequest⟩ := Request.exists_emit hdelivery
    rw [(h.emitted d hrequest).1, List.countP_singleton, addsFailure, hrequest]
  | some delivery =>
    have hpersists : event.request.delivery? ≠ none := by simp [hdelivery]
    have hfails : event.addsFailure = !event.answer := by
      unfold addsFailure
      split
      next d hrequest => rw [hrequest] at hdelivery; cases hdelivery
      next => rfl
      next => rfl
    cases hanswer : event.answer with
    | true => simp [(h.succeeded hpersists hanswer).1, hfails, hanswer]
    | false =>
      obtain ⟨d, hd, hadded⟩ := h.failed hpersists hanswer
      simp [hadded, hd.code, hfails, hanswer]

/-- As many failures are found as requests have added. -/
theorem count_failures (c : Diagnostics) {log : List Event} (h : ∀ event ∈ log, event.Adds) :
    (c.emitAll (log.flatMap Event.added)).1.count .reportWriteFailed =
      c.count .reportWriteFailed + log.countP Event.addsFailure := by
  rw [Diagnostics.count, Diagnostics.entries_emitAll, List.countP_append, Diagnostics.count,
    Nat.add_left_cancel_iff]
  induction log with
  | nil => rfl
  | cons event rest ih =>
    obtain ⟨hevent, hrest⟩ := List.forall_mem_cons.mp h
    rw [List.flatMap_cons, List.countP_append, List.countP_cons, ih hrest, hevent.countP_added,
      Nat.add_comm]

/-- A content with other ones behind it; where there is none yet, the first one makes it. -/
def extendedBy (content : Option ByteArray) (parts : List ByteArray) : Option ByteArray :=
  parts.foldl (fun content part => some (content.getD .empty ++ part)) content

theorem extendedBy_append (content : Option ByteArray) (first second : List ByteArray) :
    extendedBy content (first ++ second) = extendedBy (extendedBy content first) second :=
  List.foldl_append

namespace Desk

/-- Whether a desk is what another one and the requests made since then say. -/
structure Tells (s : Desk) (log : List Event) (now : Desk) : Prop where
  findings : now.findings = (s.findings.emitAll (log.flatMap Event.added)).1
  /-- A report is that of the findings before it, with as many failures as there were. -/
  reports : ∀ earlier event later, log = earlier ++ event :: later →
    let c := (s.findings.emitAll (earlier.flatMap Event.added)).1
    event.report = render c ∧
      c.count .reportWriteFailed =
        s.findings.count .reportWriteFailed + earlier.countP Event.addsFailure
  added : ∀ event ∈ log, event.Adds
  folders : s.tree.SameFolders now.tree
  contents : ∀ target, now.content? target =
    extendedBy (s.content? target)
      ((log.filter fun event => event.reached = some target).map Event.written)
  /-- Paths lead where they led at first. -/
  aimed : ∀ event ∈ log, event.IsAimed s.tree

variable {s now : Desk} {request : Request} {delivery : Delivery} {event : Event}
  {log : List Event}

theorem tells_start (s : Desk) : s.Tells [] s where
  findings := rfl
  reports := by simp
  added := by simp
  folders := .refl s.tree
  contents := by
    intro target
    rfl
  aimed := by simp

theorem emits_of_perform {d : Diagnostic} (hperform : s.perform (.emit d) = (now, event)) :
    event.added = [d] ∧ event.reached = none ∧
      now = { s with findings := (s.findings.emit d).1 } := by
  obtain ⟨rfl, rfl⟩ := Prod.mk.inj hperform
  exact ⟨List.drop_left, rfl, rfl⟩

/-- What a request adds to the findings is all that becomes of them. -/
theorem adds_of_perform (hperform : s.perform request = (now, event)) :
    event.Adds ∧ now.findings = (s.findings.emitAll event.added).1 := by
  obtain ⟨rfl, -, -, -⟩ := noted_of_perform hperform
  cases hdelivery : event.request.delivery? with
  | none =>
    obtain ⟨d, hrequest⟩ := Request.exists_emit hdelivery
    rw [hrequest] at hperform
    obtain ⟨hadded, hreached, rfl⟩ := emits_of_perform hperform
    refine ⟨⟨?_, ?_, ?_⟩, ?_⟩
    · intro d' hsame
      rw [hrequest] at hsame
      obtain ⟨⟩ := hsame
      exact ⟨hadded, hreached⟩
    · exact fun h => absurd hdelivery h
    · exact fun h => absurd hdelivery h
    · rw [hadded]
      rfl
  | some delivery =>
    have h := attempts_of_perform hdelivery hperform
    refine ⟨⟨?_, ?_, ?_⟩, ?_⟩
    · intro d hrequest
      rw [hrequest] at hdelivery
      cases hdelivery
    · intro _ hanswer
      obtain ⟨hcomplete, hreached⟩ := h.answer.mp hanswer
      exact ⟨(h.succeeded hanswer).2.1, hcomplete, hreached⟩
    · intro _ hanswer
      obtain ⟨d, hd, -, hadded⟩ := h.failed hanswer
      exact ⟨d, hd, hadded⟩
    · cases hanswer : event.answer with
      | true =>
        obtain ⟨hfindings, hadded, -⟩ := h.succeeded hanswer
        rw [hfindings, hadded]
        rfl
      | false =>
        obtain ⟨d, -, hfindings, hadded⟩ := h.failed hanswer
        rw [hfindings, hadded]
        rfl

theorem sameFolders_of_perform (hperform : s.perform request = (now, event)) :
    s.tree.SameFolders now.tree := by
  cases hdelivery : request.delivery? with
  | none =>
    obtain ⟨d, rfl⟩ := Request.exists_emit hdelivery
    obtain ⟨-, -, rfl⟩ := emits_of_perform hperform
    exact .refl s.tree
  | some delivery =>
    rcases perform_cases hdelivery hperform with ⟨_, -, -, -, -, hfolders⟩ | ⟨-, htree, -⟩
    · exact hfolders
    · rw [htree]
      exact .refl s.tree

/-- What was opened has what was written to it behind what it had; all else is what it was. -/
theorem content?_of_perform (hperform : s.perform request = (now, event)) (target : Target) :
    now.content? target =
      if event.reached = some target then some ((s.content? target).getD .empty ++ event.written)
      else s.content? target := by
  obtain ⟨rfl, hreport, -, -⟩ := noted_of_perform hperform
  cases hdelivery : event.request.delivery? with
  | none =>
    obtain ⟨d, hrequest⟩ := Request.exists_emit hdelivery
    rw [hrequest] at hperform
    obtain ⟨-, hreached, rfl⟩ := emits_of_perform hperform
    rw [hreached, if_neg nofun]
    rfl
  | some delivery =>
    rcases perform_cases hdelivery hperform with ⟨found, hreached, -, hcontent, hothers, -⟩ |
      ⟨hreached, htree, hsinks, -⟩
    · rw [hreached, Event.written, hdelivery, hreport]
      by_cases hsame : found = target
      · subst hsame
        rw [if_pos rfl, hcontent]
      · rw [if_neg (by simpa using hsame), hothers target (Ne.symm hsame)]
    · rw [hreached, if_neg nofun, content?_congr htree hsinks]

/-- **One request keeps what the log says.** -/
theorem Tells.perform (h : s.Tells log now) {next : Desk}
    (hperform : now.perform request = (next, event)) : s.Tells (log ++ [event]) next := by
  obtain ⟨hrequest, hreport, -, -⟩ := noted_of_perform hperform
  obtain ⟨hadds, hfindings⟩ := adds_of_perform hperform
  constructor
  case findings =>
    rw [List.flatMap_append, List.flatMap_singleton, Diagnostics.emitAll_append, ← h.findings]
    exact hfindings
  case reports =>
    intro earlier other later hlog
    rcases cut_concat hlog with ⟨rfl, rfl⟩ | ⟨rest, hlog⟩
    · refine ⟨?_, count_failures s.findings h.added⟩
      rw [← h.findings]
      exact hreport
    · exact h.reports earlier other rest hlog
  case added => exact List.forall_mem_append.mpr ⟨h.added, List.forall_mem_singleton.mpr hadds⟩
  case folders => exact h.folders.trans (sameFolders_of_perform hperform)
  case contents =>
    intro target
    rw [content?_of_perform hperform, h.contents target, List.filter_append, List.map_append,
      extendedBy_append]
    by_cases hreached : event.reached = some target
    · rw [if_pos hreached, List.filter_cons_of_pos (by simpa using hreached)]
      rfl
    · rw [if_neg hreached, List.filter_cons_of_neg (by simpa using hreached)]
      rfl
  case aimed =>
    refine List.forall_mem_append.mpr ⟨h.aimed, List.forall_mem_singleton.mpr ?_⟩
    exact (isAimed_of_perform hperform).congr h.folders

theorem tells_performAll (s : Desk) (requests : List Request) :
    s.Tells (s.performAll requests).2 (s.performAll requests).1 := by
  induction requests using List.reverseRecOn with
  | nil => exact s.tells_start
  | append_singleton requests request ih =>
    rw [performAll_concat]
    exact ih.perform rfl

theorem requests_performAll (s : Desk) (requests : List Request) :
    (s.performAll requests).2.map Event.request = requests := by
  induction requests generalizing s with
  | nil => rfl
  | cons request rest ih => exact congrArg (request :: ·) (ih _)

/-- **What a path has at last**, if no report broke off that was written to its file. -/
theorem Tells.read_eq (h : s.Tells log now) {path : String}
    (hwhole : ∀ event ∈ log, event.leadsTo s.tree path = true → event.answer = true) :
    (now.tree.read path).toOption =
      extendedBy (s.tree.read path).toOption
        ((log.filter fun event => event.leadsTo s.tree path).map fun event =>
          event.report.toUTF8) := by
  rw [FileTree.toOption_read, FileTree.toOption_read, h.folders.locate]
  cases hlocate : (s.tree.locate path).toOption with
  | none =>
    have hnone : (log.filter fun event => event.leadsTo s.tree path) = [] := by
      simp [Event.leadsTo, hlocate]
    rw [hnone]
    rfl
  | some place =>
    have hcontent : now.tree.fileAt? place = _ := h.contents (.file place)
    have hleads : (fun event : Event => event.leadsTo s.tree path) =
        fun event => decide (event.reached = some (.file place)) := by
      funext event
      rw [Event.leadsTo, hlocate]
    rw [hleads]
    refine hcontent.trans (congrArg (extendedBy _) (List.map_congr_left ?_))
    intro event hevent
    obtain ⟨hlog, hreached⟩ := List.mem_filter.mp hevent
    have hanswer := hwhole event hlog ((congrFun hleads event).trans hreached)
    have hdelivery : event.request.delivery? ≠ none := by
      intro hnone
      obtain ⟨d, hrequest⟩ := Request.exists_emit hnone
      rw [((h.added event hlog).emitted d hrequest).2] at hreached
      cases hreached
    rw [Event.written, ((h.added event hlog).succeeded hdelivery hanswer).2.1]
    rfl

/-- **Reports and what becomes of them.**  An attempt to keep the report adds the report of that
    moment to its destination and nothing to the findings, or adds one warning to the findings and
    tells so; a destination that does not open leaves all files alone.  Over a run, the findings are
    those at first and what each request added, each report is that of the findings before it and
    counts every failure before it, and the file to which a path leads has the reports that were
    written to it behind what it had, in order, if none of them broke off. -/
theorem performAll_reports :
    (∀ (s : Desk) (request : Request), request.delivery? ≠ none →
      s.Attempts (s.perform request).1 (s.perform request).2) ∧
    ∀ (s : Desk) (requests : List Request),
      let run := s.performAll requests
      run.2.map Event.request = requests ∧ s.Tells run.2 run.1 ∧
        ∀ path, (∀ event ∈ run.2, event.leadsTo s.tree path = true → event.answer = true) →
          (run.1.tree.read path).toOption =
            extendedBy (s.tree.read path).toOption
              ((run.2.filter fun event => event.leadsTo s.tree path).map fun event =>
                event.report.toUTF8) := by
  constructor
  · intro s request hrequest
    obtain ⟨delivery, hdelivery⟩ := Option.ne_none_iff_exists'.mp hrequest
    exact attempts_of_perform hdelivery rfl
  · intro s requests run
    have htells := s.tells_performAll requests
    exact ⟨s.requests_performAll requests, htells, fun path hwhole => htells.read_eq hwhole⟩

/-- Two attempts fail at opening with one message and one breaks off elsewhere; the last report
    tells of all three. -/
theorem performAll_reports_after_failures :
    let s : Desk := {
      findings := .quiet, tree := .ofFiles ["home"] [("log.txt", "old\n".toUTF8)]
      sinks := fun _ => .empty }
    let run := s.performAll [
      .persistAt "missing/log.txt" .complete, .persistAt "log.txt" .complete,
      .persist 0 (.brokeOff 3 "disk full"), .persistAt "missing/log.txt" .complete,
      .emit (.ofCode .unrecognizedActivity 7 "unknown"), .persistAt "./log.txt" .complete]
    run.2.map Event.answer = [false, true, false, false, true, true] ∧
      (∀ event ∈ run.2, event.leadsTo s.tree "log.txt" = true → event.answer = true) ∧
      run.1.findings.count .reportWriteFailed = 3 ∧
      (run.1.tree.read "log.txt").toOption =
        extendedBy (some "old\n".toUTF8)
          ((run.2.filter fun event => event.leadsTo s.tree "log.txt").map fun event =>
            event.report.toUTF8) := by
  intro s run
  have hwhole : ∀ event ∈ run.2, event.leadsTo s.tree "log.txt" = true → event.answer = true := by
    decide +kernel
  have hold : (s.tree.read "log.txt").toOption = some "old\n".toUTF8 := by decide +kernel
  have hread := (performAll_reports.2 s _).2.2 "log.txt" hwhole
  rw [hold] at hread
  exact ⟨by decide +kernel, hwhole, by decide +kernel, hread⟩

end Desk

end Daybook.Report
