/-
  Daybook/Proofs/Conversion/Workers.lean
  ======================================
  **Converting several files at once.**  Each file has a worker, which converts it
  in a run of its own and then adds what it found to the shared findings, in one
  step that no other worker comes between.  The workers take their steps in any
  order.  Whatever the order is, they come to an end, every file has the result
  that it has alone, and the shared findings are those of all runs: only the order
  in which they stand tells which worker was first.
-/
import Daybook.Proofs.Conversion.Run
import Mathlib.Algebra.Ring.Nat
import Mathlib.Logic.Relation

namespace Daybook

/-! ### One file -/

namespace Converter

/-- What is found in a file that is converted in a new run. -/
def findings (c : Converter) (read : String → Except FileError ByteArray) (path : String) :
    List Diagnostic :=
  (c.convertFile read path .fresh).1.entries

/-- The result that a file has alone. -/
def result (c : Converter) (read : String → Except FileError ByteArray) (path : String) :
    Except ReadError Outcome :=
  (c.convertFile read path .fresh).2

/-- A run gains what is found in a file, and the result does not depend on the run. -/
theorem convertFile_eq (c : Converter) (read : String → Except FileError ByteArray)
    (path : String) (run : Diagnostics) :
    (c.convertFile read path run).1.entries = run.entries ++ c.findings read path ∧
      (c.convertFile read path run).2 = c.result read path := by
  unfold findings result convertFile
  cases read path with
  | error cause => simp
  | ok bytes => simp [convert_eq]

theorem convertFiles_eq (c : Converter) (read : String → Except FileError ByteArray)
    (shared : Diagnostics) (paths : List String) :
    (c.convertFiles read shared paths).1.entries =
        shared.entries ++ paths.flatMap (c.findings read) ∧
      (c.convertFiles read shared paths).2 = paths.map fun path => (path, c.result read path) := by
  induction paths generalizing shared with
  | nil => simp [convertFiles]
  | cons path rest ih =>
    obtain ⟨hrun, hresult⟩ := c.convertFile_eq read path .quiet
    obtain ⟨hentries, hresults⟩ := ih (shared.absorb (c.convertFile read path .quiet).1).1
    constructor
    · rw [convertFiles, hentries]
      simp [Diagnostics.absorb, hrun]
    · rw [List.map_cons, ← hresults, ← hresult]
      rfl

end Converter

/-! ### Workers -/

/-- How far the worker of a file has come. -/
inductive FileTask where
  | waiting
  /-- The file is converted, in a run that has not been shared yet. -/
  | converted (run : Diagnostics × Except ReadError Outcome)
  /-- The findings are shared; `news` of their messages were new among the shared ones. -/
  | shared (result : Except ReadError Outcome) (news : Nat)

namespace FileTask

def result? : FileTask → Option (Except ReadError Outcome)
  | .waiting | .converted _ => none
  | .shared result _ => some result

def news : FileTask → Nat
  | .waiting | .converted _ => 0
  | .shared _ news => news

def left : FileTask → Nat
  | .waiting => 2
  | .converted _ => 1
  | .shared _ _ => 0

theorem exists_of_left_eq_zero {task : FileTask} (h : task.left = 0) :
    ∃ result news, task = .shared result news := by
  cases task with
  | waiting => cases h
  | converted run => cases h
  | shared result news => exact ⟨result, news, rfl⟩

end FileTask

/-- The findings that workers share, and their tasks in the order of the paths. -/
structure Workers where
  findings : Diagnostics
  tasks : List (String × FileTask)

namespace Workers

def start (paths : List String) : Workers :=
  { findings := .fresh, tasks := paths.map fun path => (path, .waiting) }

def Finished (w : Workers) : Prop := ∀ task ∈ w.tasks, task.2.left = 0

/-- The results that are there, in the order of the paths. -/
def results (w : Workers) : List (String × Except ReadError Outcome) :=
  w.tasks.filterMap fun task => task.2.result?.map fun result => (task.1, result)

/-- What all additions to the shared findings said was new. -/
def news (w : Workers) : Nat := (w.tasks.map fun task => task.2.news).sum

def left (w : Workers) : Nat := (w.tasks.map fun task => task.2.left).sum

/-- One step of one worker. -/
inductive Step (c : Converter) (read : String → Except FileError ByteArray) :
    Workers → Workers → Prop where
  | convert (findings : Diagnostics) (before after : List (String × FileTask)) (path : String) :
    Step c read ⟨findings, before ++ (path, .waiting) :: after⟩
      ⟨findings, before ++ (path, .converted (c.convertFile read path .quiet)) :: after⟩
  | share (findings : Diagnostics) (before after : List (String × FileTask)) (path : String)
      (run : Diagnostics) (result : Except ReadError Outcome) :
    Step c read ⟨findings, before ++ (path, .converted (run, result)) :: after⟩
      ⟨(findings.absorb run).1, before ++ (path, .shared result (findings.absorb run).2) :: after⟩

variable {c : Converter} {read : String → Except FileError ByteArray} {w w' : Workers}

/-! ### Workers come to an end -/

theorem Step.left (h : Step c read w w') : w.left = w'.left + 1 := by
  cases h with
  | convert findings before after path => simp [Workers.left, FileTask.left]; omega
  | share findings before after path run result => simp [Workers.left, FileTask.left]; omega

/-- **Workers that have not finished can take a step.** -/
theorem finished_or_exists_step (w : Workers) : w.Finished ∨ ∃ w', Step c read w w' := by
  by_cases hfinished : w.Finished
  · exact .inl hfinished
  · right
    simp only [Finished, not_forall] at hfinished
    obtain ⟨⟨path, task⟩, hmem, hleft⟩ := hfinished
    obtain ⟨findings, tasks⟩ := w
    obtain ⟨before, after, rfl⟩ := List.append_of_mem hmem
    cases task with
    | waiting => exact ⟨_, .convert findings before after path⟩
    | converted run => exact ⟨_, .share findings before after path run.1 run.2⟩
    | shared result news => exact absurd rfl hleft

/-- **Workers cannot take steps for ever.** -/
theorem acc_step (w : Workers) : Acc (fun next w => Step c read w next) w := by
  induction hn : w.left using Nat.strongRecOn generalizing w with
  | _ n ih =>
    constructor
    intro next hnext
    have hleft := hnext.left
    exact ih next.left (by omega) next rfl

/-! ### What is shared -/

/-- What a task has shared: nothing, until it is done. -/
def sharedBy (c : Converter) (read : String → Except FileError ByteArray) :
    String × FileTask → List Diagnostic
  | (_, .waiting) | (_, .converted _) => []
  | (path, .shared _ _) => c.findings read path

/-- Whether what a worker has in hand is what its file gives. -/
def Faithful (c : Converter) (read : String → Except FileError ByteArray) :
    String × FileTask → Prop
  | (_, .waiting) => True
  | (path, .converted run) => run = c.convertFile read path .quiet
  | (path, .shared result _) => result = c.result read path

/-- What holds of workers at all times: each stands for its path and is faithful, and what is
    shared is what the tasks have shared. -/
structure Sound (c : Converter) (read : String → Except FileError ByteArray)
    (paths : List String) (w : Workers) : Prop where
  paths : w.tasks.map Prod.fst = paths
  faithful : ∀ task ∈ w.tasks, Faithful c read task
  entries : w.findings.entries.Perm (w.tasks.flatMap (sharedBy c read))
  kept : w.findings.Kept
  news : w.news = w.findings.seen.length

theorem sound_start (paths : List String) : Sound c read paths (start paths) where
  paths := by simp [start, Function.comp_def]
  faithful := by
    intro task htask
    obtain ⟨path, -, rfl⟩ := List.mem_map.mp htask
    trivial
  entries := by simp [start, sharedBy, List.flatMap_map]
  kept := Diagnostics.kept_fresh
  news := by simp [start, Workers.news, FileTask.news, Diagnostics.fresh, Function.comp_def]

theorem forall_mem_replace {before after : List (String × FileTask)} {task next : String × FileTask}
    {p : String × FileTask → Prop} (h : ∀ t ∈ before ++ task :: after, p t) (hnext : p next) :
    ∀ t ∈ before ++ next :: after, p t := by
  intro t ht
  rcases List.mem_append.mp ht with hmem | hmem
  · exact h t (List.mem_append_left _ hmem)
  · rcases List.mem_cons.mp hmem with rfl | hmem
    · exact hnext
    · exact h t (List.mem_append_right _ (List.mem_cons_of_mem _ hmem))

theorem Sound.step {paths : List String} (h : Sound c read paths w) (hstep : Step c read w w') :
    Sound c read paths w' := by
  obtain ⟨hpaths, hfaithful, hentries, hkept, hnews⟩ := h
  cases hstep with
  | convert findings before after path =>
    constructor
    case paths => simpa using hpaths
    case faithful => exact forall_mem_replace hfaithful rfl
    case entries => simpa [sharedBy] using hentries
    case kept => exact hkept
    case news => simpa [Workers.news, FileTask.news] using hnews
  | share findings before after path run result =>
    have hrun : (run, result) = c.convertFile read path .quiet :=
      hfaithful _ (List.mem_append_right _ List.mem_cons_self)
    obtain ⟨hfound, hresult⟩ := c.convertFile_eq read path .quiet
    rw [← hrun] at hfound hresult
    have hfound : run.entries = c.findings read path := by
      simpa using hfound
    constructor
    case paths => simpa using hpaths
    case faithful => exact forall_mem_replace hfaithful hresult
    case entries =>
      -- the run is added at the end, and its task stands somewhere among the others
      simp only [Diagnostics.absorb, Diagnostics.entries_emitAll, hfound, List.flatMap_append,
        List.flatMap_cons, sharedBy, List.nil_append] at hentries ⊢
      refine (hentries.append_right _).trans ?_
      rw [List.append_assoc]
      exact List.perm_append_comm.append_left _
    case kept => exact hkept.emitAll run.entries
    case news =>
      have hmore := findings.news_emitAll run.entries
      simp only [Workers.news, List.map_append, List.map_cons, List.sum_append, List.sum_cons,
        FileTask.news, Diagnostics.absorb] at hnews ⊢
      omega

theorem Sound.steps {paths : List String} (h : Sound c read paths w)
    (hsteps : Relation.ReflTransGen (Step c read) w w') : Sound c read paths w' := by
  induction hsteps with
  | refl => exact h
  | tail _ hstep ih => exact ih.step hstep

/-! ### When all have finished -/

theorem Sound.sharedBy_of_finished {paths : List String} (h : Sound c read paths w)
    (hfinished : w.Finished) :
    w.tasks.flatMap (sharedBy c read) = paths.flatMap (c.findings read) := by
  rw [← h.paths, List.flatMap_map]
  apply List.flatMap_congr
  rintro ⟨path, task⟩ hmem
  obtain ⟨result, news, rfl⟩ := FileTask.exists_of_left_eq_zero (hfinished _ hmem)
  rfl

theorem Sound.results_of_finished {paths : List String} (h : Sound c read paths w)
    (hfinished : w.Finished) :
    w.results = paths.map fun path => (path, c.result read path) := by
  have hresult : ∀ task ∈ w.tasks, (task.2.result?.map fun result => (task.1, result)) =
      some (task.1, c.result read task.1) := by
    rintro ⟨path, task⟩ hmem
    obtain ⟨result, news, rfl⟩ := FileTask.exists_of_left_eq_zero (hfinished _ hmem)
    have hsame : result = c.result read path := h.faithful _ hmem
    rw [hsame]
    rfl
  rw [results, ← h.paths, List.map_map, List.filterMap_congr hresult]
  simp [Function.comp_def]

/-! ### Every order -/

def waitingPath? : String × FileTask → Option String
  | (path, .waiting) => some path
  | (_, .converted _) | (_, .shared _ _) => none

theorem mem_of_mem_waitingPaths {tasks : List (String × FileTask)} {path : String}
    (h : path ∈ tasks.filterMap waitingPath?) : (path, FileTask.waiting) ∈ tasks := by
  obtain ⟨⟨other, task⟩, hmem, hwaiting⟩ := List.mem_filterMap.mp h
  cases task with
  | waiting =>
    obtain rfl := Option.some.inj hwaiting
    exact hmem
  | converted run => cases hwaiting
  | shared result news => cases hwaiting

/-- Workers of which none is between its two steps can go on in any order of those that wait. -/
theorem exists_steps_of_perm (c : Converter) (read : String → Except FileError ByteArray)
    {order : List String} {findings : Diagnostics} {tasks : List (String × FileTask)}
    (horder : order.Perm (tasks.filterMap waitingPath?))
    (htasks : ∀ task ∈ tasks, task.2.left ≠ 1) :
    ∃ w, Relation.ReflTransGen (Step c read) ⟨findings, tasks⟩ w ∧ w.Finished ∧
      w.findings.entries = findings.entries ++ order.flatMap (c.findings read) := by
  induction order generalizing findings tasks with
  | nil =>
    refine ⟨_, .refl, ?_, by simp⟩
    rintro ⟨path, task⟩ hmem
    cases task with
    | waiting =>
      have hwaiting : path ∈ tasks.filterMap waitingPath? :=
        List.mem_filterMap.mpr ⟨_, hmem, rfl⟩
      rw [← horder.mem_iff] at hwaiting
      cases hwaiting
    | converted run => exact absurd rfl (htasks _ hmem)
    | shared result news => rfl
  | cons path rest ih =>
    have hmem := mem_of_mem_waitingPaths (horder.mem_iff.mp List.mem_cons_self)
    obtain ⟨before, after, rfl⟩ := List.append_of_mem hmem
    -- the worker of `path` takes both its steps
    let run := c.convertFile read path .quiet
    have hfirst : Step c read _ _ := .convert findings before after path
    have hsecond : Step c read _ _ := .share findings before after path run.1 run.2
    let done := FileTask.shared run.2 (findings.absorb run.1).2
    have hrest : rest.Perm ((before ++ (path, done) :: after).filterMap waitingPath?) := by
      simp only [List.filterMap_append, List.filterMap_cons, waitingPath?, done] at horder ⊢
      exact (horder.trans List.perm_middle).cons_inv
    have hothers : ∀ task ∈ before ++ (path, done) :: after, task.2.left ≠ 1 :=
      forall_mem_replace htasks Nat.zero_ne_one
    obtain ⟨w, hsteps, hfinished, hentries⟩ := ih hrest hothers
    refine ⟨w, .head hfirst (.head hsecond hsteps), hfinished, ?_⟩
    have hfound : run.1.entries = c.findings read path := by
      simpa using (c.convertFile_eq read path .quiet).1
    rw [hentries]
    simp [Diagnostics.absorb, hfound]

/-- **Every order of the files is the order in which some workers share their findings.** -/
theorem exists_finished_of_perm (c : Converter) (read : String → Except FileError ByteArray)
    {order paths : List String} (horder : order.Perm paths) :
    ∃ w, Relation.ReflTransGen (Step c read) (start paths) w ∧ w.Finished ∧
      w.findings.entries = order.flatMap (c.findings read) := by
  have hwaiting :
      (paths.map fun path => (path, FileTask.waiting)).filterMap waitingPath? = paths := by
    simp [List.filterMap_map, Function.comp_def, waitingPath?]
  rw [← hwaiting] at horder
  exact exists_steps_of_perm c read horder (by simp [FileTask.left])

/-! ### Any order -/

/-- **Files converted at once give what they give one after the other.** -/
theorem start_spec (c : Converter) (read : String → Except FileError ByteArray)
    (paths : List String) :
    Acc (fun next w => Step c read w next) (start paths) ∧
      ∀ w, Relation.ReflTransGen (Step c read) (start paths) w →
        (w.Finished ∨ ∃ next, Step c read w next) ∧
        (w.Finished →
          let found := paths.flatMap fun path => (c.convertFile read path .fresh).1.entries
          w.results = paths.map (fun path => (path, (c.convertFile read path .fresh).2)) ∧
            w.findings.entries.Perm found ∧
            w.findings.size = found.length ∧
            (∀ code, w.findings.count code = found.countP fun d => d.code == code) ∧
            w.findings.sorted = Diagnostic.sort found ∧
            Report.render w.findings = Report.render (c.convertFiles read .fresh paths).1 ∧
            w.news = (found.map Diagnostic.message).toFinset.card) := by
  refine ⟨acc_step _, ?_⟩
  intro w hsteps
  refine ⟨finished_or_exists_step w, ?_⟩
  intro hfinished found
  have hsound : Sound c read paths w := (sound_start paths).steps hsteps
  have hperm : w.findings.entries.Perm found := by
    have hshared := hsound.entries
    rw [hsound.sharedBy_of_finished hfinished] at hshared
    exact hshared
  have hsequential : (c.convertFiles read .fresh paths).1.entries = found := by
    have hentries := (c.convertFiles_eq read .fresh paths).1
    rw [Diagnostics.entries_fresh, List.nil_append] at hentries
    exact hentries
  refine ⟨hsound.results_of_finished hfinished, hperm, hperm.length_eq, ?_,
    Diagnostic.sort_congr hperm, ?_, ?_⟩
  · intro code
    exact hperm.countP_eq _
  · apply Report.render_congr
    rw [hsequential]
    exact hperm
  · rw [hsound.news, hsound.kept.length_seen]
    have hmessages := hperm.map Diagnostic.message
    exact congrArg Finset.card (List.toFinset_eq_of_perm _ _ hmessages)

/-- Two logs with two messages in common, and a file that is not there: whichever log is shared
    first, the common messages are news once. -/
theorem start_spec_reversed :
    let c : Converter := {
      table := {}, validation := { mode := .none }, scope := .range, dayStart := .midnight,
      fallbackYear := 2025, linksSleep := true }
    let read := fun path : String =>
      if path = "a.txt" then .ok "stray\n2025_01_15\n0700wake\n2300 x\n".toUTF8
      else if path = "b.txt" then .ok "\n2025_01_15\n0800 x\n".toUTF8
      else .error FileError.notFound
    ∃ w, Relation.ReflTransGen (Step c read) (start ["a.txt", "none.txt", "b.txt"]) w ∧
      w.Finished ∧ w.findings.entries = ["b.txt", "none.txt", "a.txt"].flatMap (c.findings read) ∧
      w.findings.size = 7 ∧ w.news = 5 ∧
      Report.render w.findings =
        Report.render (c.convertFiles read .fresh ["a.txt", "none.txt", "b.txt"]).1 := by
  intro c read
  have horder : ["b.txt", "none.txt", "a.txt"].Perm ["a.txt", "none.txt", "b.txt"] := by decide
  obtain ⟨w, hsteps, hfinished, hentries⟩ := exists_finished_of_perm c read horder
  have hall := ((start_spec c read _).2 w hsteps).2 hfinished
  obtain ⟨-, -, hsize, -, -, hreport, hnews⟩ := hall
  refine ⟨w, hsteps, hfinished, hentries, hsize.trans ?size, hnews.trans ?news, hreport⟩
  case size => decide +kernel
  case news => decide +kernel

end Workers

end Daybook
