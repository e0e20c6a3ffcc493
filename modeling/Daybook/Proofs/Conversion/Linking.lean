/-
  Daybook/Proofs/Conversion/Linking.lean
  ======================================
  **Closing days with sleep, one after the other.**  The pass over the days changes
  the list that it is going through, and the day that is closed may come before or
  after the one that closes it.  When no two days have one date, no step meets what
  another one did: after some days, each day has the sleep that those days give it
  (`foldl_linkAt`).  So the pass closes each day with the sleep that the day after
  it gives (`linkSleep_eq`), wherever that day stands, and no day twice
  (`linkSleep_spec`).
-/
import Daybook.Conversion.Sleep
import Daybook.Proofs.Calendar.Date
import Mathlib.Data.List.Induction
import Mathlib.Data.List.Nodup

namespace Daybook

variable {table : RuleTable} {days seen : List ScannedDay} {date : Date} {log : DailyLog}

@[simp] theorem DailyLog.closedBy_none (log : DailyLog) : log.closedBy none = log := by
  simp [closedBy]

@[simp] theorem ScannedDay.closedBy_none (day : ScannedDay) : day.closedBy none = day := by
  simp [closedBy]

@[simp] theorem ScannedDay.date_closedBy (day : ScannedDay) (sleep : Option Activity) :
    (day.closedBy sleep).log.date = day.log.date := rfl

@[simp] theorem ScannedDay.line_closedBy (day : ScannedDay) (sleep : Option Activity) :
    (day.closedBy sleep).log.line = day.log.line := rfl

@[simp] theorem ScannedDay.wake_closedBy (day : ScannedDay) (sleep : Option Activity) :
    (day.closedBy sleep).wake = day.wake := rfl

theorem date_ne_of_nodup {front back : List ScannedDay} {day : ScannedDay}
    (h : ((front ++ day :: back).map fun day => day.log.date).Nodup) :
    ∀ other ∈ front ++ back, other.log.date ≠ day.log.date := by
  intro other hother heq
  rw [List.map_append, List.map_cons, List.nodup_middle, ← List.map_append, List.nodup_cons] at h
  exact h.1 (List.mem_map.mpr ⟨other, hother, heq⟩)

/-! ### The place of a date -/

theorem placeOf?_eq_none_iff : placeOf? date days = none ↔ ∀ day ∈ days, day.log.date ≠ date := by
  induction days with
  | nil => simp [placeOf?]
  | cons day rest ih =>
    rw [List.forall_mem_cons, ← ih, placeOf?]
    cases placeOf? date rest with
    | none => simp
    | some place => simp

theorem exists_of_placeOf?_eq_some {place : Nat} (h : placeOf? date days = some place) :
    ∃ front day back, days = front ++ day :: back ∧ front.length = place ∧ day.log.date = date := by
  induction days generalizing place with
  | nil => cases h
  | cons first rest ih =>
    rw [placeOf?] at h
    cases hrest : placeOf? date rest with
    | none =>
      simp only [hrest, Option.ite_none_right_eq_some] at h
      obtain ⟨hdate, hplace⟩ := h
      exact ⟨[], first, rest, rfl, Option.some.inj hplace, hdate⟩
    | some later =>
      rw [hrest] at h
      obtain ⟨front, day, back, rfl, rfl, hdate⟩ := ih hrest
      exact ⟨first :: front, day, back, rfl, Option.some.inj h, hdate⟩

/-! ### The sleep of a day -/

/-- The day after a date among days, if it is there and opened with a wake line, with the time of
    that line. -/
def wakeAfter? (days : List ScannedDay) (date : Date) : Option (ScannedDay × TimeOfDay) :=
  days.findSome? fun next =>
    if next.log.date.pred? = some date then next.wake.map fun wake => (next, wake) else none

/-- The sleep that closes a log, if its last activity is not sleep and the next day tells when it
    ended. -/
def closingSleep? (table : RuleTable) (days : List ScannedDay) (log : DailyLog) :
    Option Activity :=
  (wakeAfter? days log.date).bind fun (next, wake) => sleepUntil? table log wake next.log.line

theorem sleepUntil?_eq_some_iff {wake : TimeOfDay} {line : Nat} {sleep : Activity} :
    sleepUntil? table log wake line = some sleep ↔
      ∃ last, log.activities.getLast? = some last ∧ last.path ≠ table.sleepPath ∧
        sleep =
          { Activity.between last.finish wake table.sleepLeaf table.sleepPath with line } := by
  unfold sleepUntil?
  cases log.activities.getLast? with
  | none => simp
  | some last => by_cases hpath : last.path = table.sleepPath <;> simp [hpath, eq_comm]

theorem isSome_wakeAfter?_iff :
    (wakeAfter? days date).isSome = true ↔
      ∃ next ∈ days, date.succ? = some next.log.date ∧ next.wake.isSome = true := by
  unfold wakeAfter?
  rw [List.findSome?_isSome_iff]
  apply exists_congr
  intro next
  apply and_congr_right
  intro _
  rw [← Date.pred?_eq_some_iff_succ?]
  by_cases hdate : next.log.date.pred? = some date
  · simp [hdate]
  · simp [hdate]

theorem mem_of_wakeAfter?_eq_some {next : ScannedDay} {wake : TimeOfDay}
    (h : wakeAfter? days date = some (next, wake)) :
    next ∈ days ∧ date.succ? = some next.log.date ∧ next.wake = some wake := by
  obtain ⟨day, hday, hfound⟩ := List.exists_of_findSome?_eq_some h
  split at hfound
  case isTrue hdate =>
    obtain ⟨time, htime, hpair⟩ := Option.map_eq_some_iff.mp hfound
    obtain ⟨rfl, rfl⟩ := Prod.mk.inj hpair
    exact ⟨hday, Date.pred?_eq_some_iff_succ?.mp hdate, htime⟩
  case isFalse => cases hfound

theorem closingSleep?_eq_some_iff {sleep : Activity} :
    closingSleep? table days log = some sleep ↔
      ∃ last next wake, log.activities.getLast? = some last ∧
        wakeAfter? days log.date = some (next, wake) ∧ last.path ≠ table.sleepPath ∧
        sleep = { Activity.between last.finish wake table.sleepLeaf table.sleepPath with
          line := next.log.line } := by
  unfold closingSleep?
  simp only [Option.bind_eq_some_iff, Prod.exists, sleepUntil?_eq_some_iff]
  constructor
  · rintro ⟨next, wake, hwake, last, hlast, hpath, hsleep⟩
    exact ⟨last, next, wake, hlast, hwake, hpath, hsleep⟩
  · rintro ⟨last, next, wake, hlast, hwake, hpath, hsleep⟩
    exact ⟨next, wake, hwake, last, hlast, hpath, hsleep⟩

theorem closingSleep?_eq_none_of_wakeAfter? (h : wakeAfter? days log.date = none) :
    closingSleep? table days log = none := by
  rw [closingSleep?, h]
  rfl

/-! ### One step -/

theorem wakeAfter?_append (days days' : List ScannedDay) (date : Date) :
    wakeAfter? (days ++ days') date = (wakeAfter? days date).or (wakeAfter? days' date) :=
  List.findSome?_append

theorem wakeAfter?_singleton_eq_some_iff {next : ScannedDay} {found : ScannedDay × TimeOfDay} :
    wakeAfter? [next] date = some found ↔
      next.log.date.pred? = some date ∧ ∃ wake, next.wake = some wake ∧ found = (next, wake) := by
  unfold wakeAfter?
  rw [List.findSome?_singleton]
  by_cases hdate : next.log.date.pred? = some date
  · rw [if_pos hdate, Option.map_eq_some_iff, and_iff_right hdate]
    simp only [eq_comm]
  · simp [hdate]

/-- A day that is not among others is not the one after a date, which one of them might be. -/
theorem wakeAfter?_eq_none_of_pred? {next : ScannedDay} (hpred : next.log.date.pred? = some date)
    (hnew : ∀ day ∈ seen, day.log.date ≠ next.log.date) : wakeAfter? seen date = none := by
  rw [Option.eq_none_iff_forall_ne_some]
  rintro ⟨day, wake⟩ hfound
  obtain ⟨hday, hsucc, -⟩ := mem_of_wakeAfter?_eq_some hfound
  have hsucc' := Date.pred?_eq_some_iff_succ?.mp hpred
  exact hnew day hday (Option.some.inj (hsucc.symm.trans hsucc'))

theorem closingSleep?_append_of_wakeAfter? {days' : List ScannedDay}
    (h : wakeAfter? days' log.date = none) :
    closingSleep? table (days ++ days') log = closingSleep? table days log := by
  rw [closingSleep?, wakeAfter?_append, h, Option.or_none, closingSleep?]

/-- Further days give a log its sleep when the first ones do not. -/
theorem closingSleep?_append_of_wakeAfter?_eq_some {days' : List ScannedDay} {next : ScannedDay}
    {wake : TimeOfDay} (hfirst : wakeAfter? days log.date = none)
    (h : wakeAfter? days' log.date = some (next, wake)) :
    closingSleep? table (days ++ days') log = sleepUntil? table log wake next.log.line := by
  rw [closingSleep?, wakeAfter?_append, hfirst, h]
  rfl

/-- What the days seen so far make of all days. -/
def linkedBy (table : RuleTable) (seen days : List ScannedDay) : Linked where
  days := days.map fun day => day.closedBy (closingSleep? table seen day.log)
  count := days.countP fun day => (closingSleep? table seen day.log).isSome

theorem linkedBy_congr {seen' : List ScannedDay}
    (h : ∀ day ∈ days, closingSleep? table seen day.log = closingSleep? table seen' day.log) :
    linkedBy table seen days = linkedBy table seen' days := by
  unfold linkedBy
  congr 1
  · apply List.map_congr_left
    intro day hday
    rw [h day hday]
  · apply List.countP_congr
    intro day hday
    rw [h day hday]

theorem getElem?_linkedBy {front back : List ScannedDay} {day : ScannedDay}
    (h : days = front ++ day :: back) :
    (linkedBy table seen days).days[front.length]? =
      some (day.closedBy (closingSleep? table seen day.log)) := by
  simp [linkedBy, h]

/-- Days that give one day its sleep, and the others what they have. -/
theorem linkedBy_eq_of_append {seen' front back : List ScannedDay} {day : ScannedDay}
    (h : days = front ++ day :: back) (hbefore : closingSleep? table seen day.log = none)
    (hkept : ∀ other ∈ front ++ back,
      closingSleep? table seen' other.log = closingSleep? table seen other.log) :
    linkedBy table seen' days =
      match closingSleep? table seen' day.log with
      | none => linkedBy table seen days
      | some sleep => {
          days := (linkedBy table seen days).days.set front.length (day.closedBy (some sleep))
          count := (linkedBy table seen days).count + 1 } := by
  have hfront : linkedBy table seen' front = linkedBy table seen front :=
    linkedBy_congr fun other hother => hkept other (List.mem_append_left _ hother)
  have hback : linkedBy table seen' back = linkedBy table seen back :=
    linkedBy_congr fun other hother => hkept other (List.mem_append_right _ hother)
  simp only [linkedBy, Linked.mk.injEq] at hfront hback
  obtain ⟨hfrontDays, hfrontCount⟩ := hfront
  obtain ⟨hbackDays, hbackCount⟩ := hback
  cases hafter : closingSleep? table seen' day.log with
  | none => simp [linkedBy, h, hbefore, hafter, hfrontDays, hfrontCount, hbackDays, hbackCount]
  | some sleep =>
    simp only [linkedBy, h, List.map_append, List.map_cons, List.countP_append, List.countP_cons,
      hbefore, hafter, hfrontDays, hfrontCount, hbackDays, hbackCount]
    simp [Nat.add_assoc]

theorem Linked.exists_of_closing?_eq_some {l : Linked} {place? : Date → Option Nat} {i : Nat}
    {closed : Nat × ScannedDay} (h : l.closing? table place? i = some closed) :
    ∃ next wake date place, l.days[i]? = some next ∧ next.wake = some wake ∧
      next.log.date.pred? = some date ∧ place? date = some place := by
  unfold closing? at h
  simp only [bind, Option.bind_eq_some_iff] at h
  obtain ⟨next, hnext, wake, hwake, place, ⟨date, hdate, hplace⟩, -⟩ := h
  exact ⟨next, wake, date, place, hnext, hwake, hdate, hplace⟩

section

variable {next : ScannedDay} {rest : List ScannedDay} (hdays : days = seen ++ next :: rest)
include hdays

theorem linkAt_of_wakeAfter?_eq_none
    (h : ∀ day ∈ days, wakeAfter? [next] day.log.date = none) :
    (linkedBy table seen days).linkAt table (fun date => placeOf? date days) seen.length =
      linkedBy table (seen ++ [next]) days := by
  have hclosing : (linkedBy table seen days).closing? table (fun date => placeOf? date days)
      seen.length = none := by
    rw [Option.eq_none_iff_forall_ne_some]
    intro closed hclosed
    obtain ⟨day, wake, date, place, hday, hwake, hdate, hplace⟩ :=
      Linked.exists_of_closing?_eq_some hclosed
    rw [getElem?_linkedBy hdays, Option.some.injEq] at hday
    obtain ⟨front, before, back, hsplit, -, rfl⟩ := exists_of_placeOf?_eq_some hplace
    have hbefore : before ∈ days := hsplit ▸ List.mem_append_right _ List.mem_cons_self
    have hsome : wakeAfter? [next] before.log.date = some (next, wake) := by
      rw [wakeAfter?_singleton_eq_some_iff]
      rw [← hday] at hdate hwake
      exact ⟨hdate, wake, hwake, rfl⟩
    rw [h before hbefore] at hsome
    cases hsome
  rw [Linked.linkAt, hclosing]
  apply linkedBy_congr
  intro day hday
  exact (closingSleep?_append_of_wakeAfter? (h day hday)).symm

/-- The day before a wake line, with the sleep that it is closed with, if it has none yet. -/
theorem closing?_linkedBy {front back : List ScannedDay} {day : ScannedDay} {wake : TimeOfDay}
    (hsplit : days = front ++ day :: back)
    (hplace : placeOf? day.log.date days = some front.length)
    (hpred : next.log.date.pred? = some day.log.date) (hwake : next.wake = some wake)
    (hbefore : closingSleep? table seen day.log = none) :
    (linkedBy table seen days).closing? table (fun date => placeOf? date days) seen.length =
      (sleepUntil? table day.log wake next.log.line).map fun sleep =>
        (front.length, day.closedBy (some sleep)) := by
  have hday : (linkedBy table seen days).days[front.length]? = some day := by
    rw [getElem?_linkedBy hsplit, hbefore, ScannedDay.closedBy_none]
  simp only [Linked.closing?, getElem?_linkedBy hdays, ScannedDay.wake_closedBy, hwake,
    ScannedDay.date_closedBy, hpred, hplace, hday, ScannedDay.line_closedBy, bind, Option.bind_some]
  cases sleepUntil? table day.log wake next.log.line <;> rfl

variable (hdates : (days.map fun day => day.log.date).Nodup)
include hdates

theorem linkAt_of_wakeAfter? {target : ScannedDay} (htarget : target ∈ days)
    (h : wakeAfter? [next] target.log.date ≠ none) :
    (linkedBy table seen days).linkAt table (fun date => placeOf? date days) seen.length =
      linkedBy table (seen ++ [next]) days := by
  obtain ⟨found, hfound⟩ := Option.ne_none_iff_exists'.mp h
  obtain ⟨hpred, wake, hwake, rfl⟩ := wakeAfter?_singleton_eq_some_iff.mp hfound
  cases hplace : placeOf? target.log.date days with
  | none => exact absurd rfl (placeOf?_eq_none_iff.mp hplace target htarget)
  | some place =>
    obtain ⟨front, day, back, hsplit, rfl, hdate⟩ := exists_of_placeOf?_eq_some hplace
    rw [← hdate] at hpred hfound hplace
    have hunseen : wakeAfter? seen day.log.date = none :=
      wakeAfter?_eq_none_of_pred? hpred fun other hother =>
        date_ne_of_nodup (hdays ▸ hdates) other (List.mem_append_left _ hother)
    have hbefore : closingSleep? table seen day.log = none :=
      closingSleep?_eq_none_of_wakeAfter? hunseen
    have hafter : closingSleep? table (seen ++ [next]) day.log =
        sleepUntil? table day.log wake next.log.line :=
      closingSleep?_append_of_wakeAfter?_eq_some hunseen hfound
    -- no other day has the date of this one, so the step can change no other
    have hkept : ∀ other ∈ front ++ back,
        closingSleep? table (seen ++ [next]) other.log = closingSleep? table seen other.log := by
      intro other hother
      apply closingSleep?_append_of_wakeAfter?
      rw [Option.eq_none_iff_forall_ne_some]
      intro found hfound
      have hsame := (wakeAfter?_singleton_eq_some_iff.mp hfound).1
      rw [hpred, Option.some.injEq] at hsame
      exact date_ne_of_nodup (hsplit ▸ hdates) other hother hsame.symm
    rw [Linked.linkAt, closing?_linkedBy hdays hsplit hplace hpred hwake hbefore,
      linkedBy_eq_of_append hsplit hbefore hkept, hafter]
    cases sleepUntil? table day.log wake next.log.line <;> rfl

end

/-! ### The whole pass -/

/-- **What the first days make of all days**, by the time the pass has come to the others. -/
theorem foldl_linkAt (hnodup : (days.map fun day => day.log.date).Nodup)
    (hseen : seen <+: days) :
    (List.range seen.length).foldl (Linked.linkAt table fun date => placeOf? date days) { days } =
      linkedBy table seen days := by
  induction seen using List.reverseRecOn with
  | nil => simp [linkedBy, closingSleep?, wakeAfter?]
  | append_singleton seen next ih =>
    obtain ⟨rest, hdays⟩ := hseen
    rw [List.append_assoc] at hdays
    rw [List.length_append, List.length_singleton, List.range_succ, List.foldl_append,
      ih ⟨_, hdays⟩, List.foldl_cons, List.foldl_nil]
    by_cases hnone : ∀ day ∈ days, wakeAfter? [next] day.log.date = none
    · exact linkAt_of_wakeAfter?_eq_none hdays.symm hnone
    · push Not at hnone
      obtain ⟨target, htarget, hsome⟩ := hnone
      exact linkAt_of_wakeAfter? hdays.symm hnodup htarget hsome

/-- **The pass closes each day with the sleep that the day after it gives.** -/
theorem linkSleep_eq (hdates : (days.map fun day => day.log.date).Nodup) :
    linkSleep table days = linkedBy table days days :=
  foldl_linkAt hdates List.prefix_rfl

/-! ### Days of distinct dates -/

theorem wakeAfter?_eq_some_iff (hdates : (days.map fun day => day.log.date).Nodup)
    {next : ScannedDay} {wake : TimeOfDay} :
    wakeAfter? days date = some (next, wake) ↔
      next ∈ days ∧ date.succ? = some next.log.date ∧ next.wake = some wake := by
  refine ⟨mem_of_wakeAfter?_eq_some, ?_⟩
  rintro ⟨hnext, hsucc, hwake⟩
  have hsome : (wakeAfter? days date).isSome = true :=
    isSome_wakeAfter?_iff.mpr ⟨next, hnext, hsucc, by simp [hwake]⟩
  obtain ⟨⟨next', wake'⟩, hfound⟩ := Option.isSome_iff_exists.mp hsome
  obtain ⟨hnext', hsucc', hwake'⟩ := mem_of_wakeAfter?_eq_some hfound
  have hsame : next' = next := by
    apply List.inj_on_of_nodup_map hdates hnext' hnext
    exact Option.some.inj (hsucc'.symm.trans hsucc)
  subst hsame
  rw [hfound, Option.some.inj (hwake'.symm.trans hwake)]

/-- **When a day is closed with sleep, and with which.** -/
theorem closingSleep?_eq_some_iff_of_nodup (hdates : (days.map fun day => day.log.date).Nodup)
    {sleep : Activity} :
    closingSleep? table days log = some sleep ↔
      ∃ last next wake, log.activities.getLast? = some last ∧ last.path ≠ table.sleepPath ∧
        next ∈ days ∧ log.date.succ? = some next.log.date ∧ next.wake = some wake ∧
        sleep = { Activity.between last.finish wake table.sleepLeaf table.sleepPath with
          line := next.log.line } := by
  rw [closingSleep?_eq_some_iff]
  simp only [wakeAfter?_eq_some_iff hdates]
  constructor
  · rintro ⟨last, next, wake, hlast, ⟨hnext, hsucc, hwake⟩, hpath, hsleep⟩
    exact ⟨last, next, wake, hlast, hpath, hnext, hsucc, hwake, hsleep⟩
  · rintro ⟨last, next, wake, hlast, hpath, hnext, hsucc, hwake, hsleep⟩
    exact ⟨last, next, wake, hlast, ⟨hnext, hsucc, hwake⟩, hpath, hsleep⟩

theorem closingSleep?_perm (hdates : (days.map fun day => day.log.date).Nodup)
    {days' : List ScannedDay} (hperm : days'.Perm days) :
    closingSleep? table days' log = closingSleep? table days log := by
  have hdates' := (hperm.map fun day => day.log.date).nodup_iff.mpr hdates
  apply Option.ext
  intro sleep
  rw [closingSleep?_eq_some_iff_of_nodup hdates, closingSleep?_eq_some_iff_of_nodup hdates']
  simp only [hperm.mem_iff]

theorem dates_linkedBy (seen days : List ScannedDay) :
    (linkedBy table seen days).days.map (fun day => day.log.date) =
      days.map fun day => day.log.date := by
  rw [linkedBy, List.map_map]
  rfl

/-- A day that has been closed is not closed again. -/
theorem closingSleep?_linkedBy (hdates : (days.map fun day => day.log.date).Nodup)
    {day : ScannedDay} :
    closingSleep? table (linkedBy table days days).days
      (day.closedBy (closingSleep? table days day.log)).log = none := by
  rw [Option.eq_none_iff_forall_ne_some]
  intro sleep hsleep
  rw [closingSleep?_eq_some_iff_of_nodup (by rwa [dates_linkedBy])] at hsleep
  obtain ⟨last, next, wake, hlast, hpath, hnext, hsucc, hwake, -⟩ := hsleep
  obtain ⟨source, hsource, rfl⟩ := List.mem_map.mp hnext
  cases hclosed : closingSleep? table days day.log with
  | none =>
    rw [hclosed, ScannedDay.closedBy_none] at hlast hsucc
    let sleep := { Activity.between last.finish wake table.sleepLeaf table.sleepPath with
      line := source.log.line }
    have hsome : closingSleep? table days day.log = some sleep :=
      (closingSleep?_eq_some_iff_of_nodup hdates).mpr
        ⟨last, source, wake, hlast, hpath, hsource, hsucc, hwake, rfl⟩
    rw [hclosed] at hsome
    cases hsome
  | some sleep =>
    -- the day ends with the sleep that it was closed with
    rw [hclosed] at hlast
    have hlast : some sleep = some last := by
      simpa [ScannedDay.closedBy, DailyLog.closedBy] using hlast
    obtain ⟨_, _, _, -, -, -, -, -, hsleep⟩ :=
      (closingSleep?_eq_some_iff_of_nodup hdates).mp (hclosed.trans hlast)
    exact hpath (congrArg Activity.path hsleep)

/-- **Linking days with sleep.**  Of days with distinct dates in any order, each is closed with one
    more activity just when the day after it is there and opened with a wake line, and its own last
    activity is not sleep: from the end of that activity to the wake line, filed under the day
    after.  Nothing else changes, and the count is that of the closed days; in another order of the
    days each is closed the same; and once closed, no day is closed again. -/
theorem linkSleep_spec (table : RuleTable) (days : List ScannedDay)
    (hdates : (days.map fun day => day.log.date).Nodup) :
    ∃ sleep? : ScannedDay → Option Activity,
      (∀ day ∈ days, ∀ sleep, sleep? day = some sleep ↔
        ∃ last next wake, day.log.activities.getLast? = some last ∧
          last.path ≠ table.sleepPath ∧ next ∈ days ∧
          day.log.date.succ? = some next.log.date ∧ next.wake = some wake ∧
          sleep = {
            start := last.finish, finish := wake, description := table.sleepLeaf
            path := table.sleepPath, seconds := intervalSeconds last.finish wake
            remark := none, line := next.log.line }) ∧
      (∀ days', days'.Perm days → linkSleep table days' = {
        days := days'.map fun day => { day with log := { day.log with
          activities := day.log.activities ++ (sleep? day).toList } }
        count := days'.countP fun day => (sleep? day).isSome }) ∧
      let linked := (linkSleep table days).days
      linkSleep table linked = { days := linked, count := 0 } := by
  refine ⟨fun day => closingSleep? table days day.log, ?_, ?_, ?_⟩
  · intro day _ sleep
    exact closingSleep?_eq_some_iff_of_nodup hdates
  · intro days' hperm
    have hdates' := (hperm.map fun day => day.log.date).nodup_iff.mpr hdates
    rw [linkSleep_eq hdates']
    exact linkedBy_congr fun day _ => closingSleep?_perm hdates hperm
  · intro linked
    have hlinked : linked = (linkedBy table days days).days :=
      congrArg Linked.days (linkSleep_eq hdates)
    have hnone : ∀ day ∈ linked, closingSleep? table linked day.log = none := by
      intro day hday
      rw [hlinked] at hday ⊢
      obtain ⟨day, -, rfl⟩ := List.mem_map.mp hday
      exact closingSleep?_linkedBy hdates
    rw [linkSleep_eq (by rwa [hlinked, dates_linkedBy]), linkedBy]
    congr 1
    · rw [List.map_congr_left fun day hday => by rw [hnone day hday]]
      simp
    · rw [List.countP_eq_zero]
      intro day hday
      simp [hnone day hday]

/-- A day that stands after the next one in the log, at the turn of a year. -/
theorem linkSleep_turn_of_year :
    let table : RuleTable := {}
    let evening : TimeOfDay := { hour := 23, minute := 30 }
    let morning : TimeOfDay := { hour := 7, minute := 0 }
    let read := Activity.between .midnight evening "read" "read"
    let first : ScannedDay :=
      { log := { date := { year := 2025, month := 1, day := 1 }, line := 1 }, wake := some morning }
    let last : ScannedDay :=
      { log :=
          { date := { year := 2024, month := 12, day := 31 }, activities := [read], line := 3 } }
    let days := [first, last]
    let sleep := { Activity.between evening morning table.sleepLeaf table.sleepPath with line := 1 }
    (days.map fun day => day.log.date).Nodup ∧
      linkSleep table days = { days := [first, last.closedBy (some sleep)], count := 1 } ∧
      linkSleep table days.reverse = { days := [last.closedBy (some sleep), first], count := 1 } ∧
      linkSleep table (linkSleep table days).days = { days := (linkSleep table days).days } := by
  intro table evening morning read first last days sleep
  have hdates : (days.map fun day => day.log.date).Nodup := by decide
  obtain ⟨sleep?, hsleep, hperm, hagain⟩ := linkSleep_spec table days hdates
  have hfirst : sleep? first = none := by
    rw [Option.eq_none_iff_forall_ne_some]
    intro sleep h
    obtain ⟨last, _, _, hlast, -⟩ := (hsleep first (by simp [days]) sleep).mp h
    cases hlast
  have hlast : sleep? last = some sleep :=
    (hsleep last (by simp [days]) sleep).mpr
      ⟨read, first, morning, rfl, by decide, by simp [days], by decide, rfl, rfl⟩
  refine ⟨hdates, ?_, ?_, hagain⟩
  · rw [hperm days (List.Perm.refl days)]
    simp [days, hfirst, hlast, ScannedDay.closedBy, DailyLog.closedBy]
  · rw [hperm days.reverse (List.reverse_perm days)]
    simp [days, hfirst, hlast, ScannedDay.closedBy, DailyLog.closedBy]

end Daybook
