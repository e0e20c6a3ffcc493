/-
  Daybook/Proofs/Scan/HeaderOrder.lean
  ====================================
  **How a header line stands to what came before it.**  A block keeps the latest line
  of each header field and whether something has happened yet; what it answers to
  a header line is nevertheless a matter of all that was done to it before
  (`Stands`), in whatever order that was done (`judgeHeader_eq_iff`).  Reading lines
  is doing such things (`exists_history_readAll`), so the header lines in front of
  a day are taken without a word just when no field but remarks comes twice and the
  fields of the header order come in that order (`noteHeader_stands`).
-/
import Daybook.Proofs.Rules.Frozen
import Daybook.Proofs.Scan.InBlocks
import Mathlib.Order.Bounds.Defs

namespace Daybook

/-! ### The header order -/

/-- Whether header fields come as the header order has them: none but remarks comes twice, and of
    those that are listed none comes after one that is listed behind it. -/
structure RuleTable.Orders (table : RuleTable) (fields : List HeaderField) : Prop where
  noneTwice : (fields.filter fun field => field ≠ .remark).Nodup
  inOrder : (fields.filterMap table.position?).Pairwise (· ≤ ·)

instance (table : RuleTable) : DecidablePred table.Orders := fun fields =>
  decidable_of_iff ((fields.filter fun field => field ≠ .remark).Nodup ∧
      (fields.filterMap table.position?).Pairwise (· ≤ ·))
    ⟨fun ⟨noneTwice, inOrder⟩ => { noneTwice, inOrder },
      fun h => ⟨h.noneTwice, h.inOrder⟩⟩

/-- Whether a header field may come after others. -/
structure RuleTable.Follows (table : RuleTable) (fields : List HeaderField) (field : HeaderField) :
    Prop where
  new : field = .remark ∨ field ∉ fields
  inPlace : ∀ i, table.position? field = some i →
    ∀ other ∈ fields, ∀ k, table.position? other = some k → k ≤ i

theorem RuleTable.orders_nil (table : RuleTable) : table.Orders [] := ⟨by simp, by simp⟩

theorem RuleTable.orders_concat {table : RuleTable} {fields : List HeaderField}
    {field : HeaderField} :
    table.Orders (fields ++ [field]) ↔ table.Orders fields ∧ table.Follows fields field := by
  have htwice : ((fields ++ [field]).filter fun field => field ≠ .remark).Nodup ↔
      (fields.filter fun field => field ≠ .remark).Nodup ∧ (field = .remark ∨ field ∉ fields) := by
    rw [List.filter_append]
    by_cases hremark : field = .remark
    · simp [hremark]
    · rw [List.filter_singleton, decide_eq_true hremark, cond_true, ← List.concat_eq_append,
        List.nodup_concat]
      simp [hremark, and_comm]
  have horder : ((fields ++ [field]).filterMap table.position?).Pairwise (· ≤ ·) ↔
      (fields.filterMap table.position?).Pairwise (· ≤ ·) ∧
        ∀ i, table.position? field = some i →
          ∀ other ∈ fields, ∀ k, table.position? other = some k → k ≤ i := by
    rw [List.filterMap_append, List.pairwise_append]
    cases hposition : table.position? field with
    | none => simp [hposition]
    | some i =>
      simp only [hposition, List.filterMap_cons_some, List.filterMap_nil, List.mem_filterMap,
        List.mem_singleton, List.pairwise_singleton, true_and, Option.some.injEq]
      constructor
      · rintro ⟨hfields, hbehind⟩
        refine ⟨hfields, ?_⟩
        rintro _ rfl other hother k hk
        exact hbehind k ⟨other, hother, hk⟩ i rfl
      · rintro ⟨hfields, hbehind⟩
        refine ⟨hfields, ?_⟩
        rintro k ⟨other, hother, hk⟩ _ rfl
        exact hbehind _ rfl other hother k hk
  constructor
  · rintro ⟨h, h'⟩
    exact ⟨⟨(htwice.mp h).1, (horder.mp h').1⟩, (htwice.mp h).2, (horder.mp h').2⟩
  · rintro ⟨⟨h, h'⟩, hnew, hplace⟩
    exact ⟨htwice.mpr ⟨h, hnew⟩, horder.mpr ⟨h', hplace⟩⟩

theorem RuleTable.ne_of_position?_lt {table : RuleTable} {field other : HeaderField} {i k : Nat}
    (hi : table.position? field = some i) (hk : table.position? other = some k) (h : i < k) :
    other ≠ field := by
  rintro rfl
  exact absurd (Option.some.inj (hi.symm.trans hk)) (by omega)

/-- The last element from a place on that passes a test: it passes, and nothing behind it does. -/
theorem getLast?_filter_drop_eq_some_iff {α : Type} {p : α → Bool} {l : List α} {n : Nat} {a : α} :
    ((l.drop n).filter p).getLast? = some a ↔
      p a = true ∧ ∃ j, n ≤ j ∧ l[j]? = some a ∧ ∀ k x, j < k → l[k]? = some x → p x = false := by
  rw [List.getLast?_eq_head?_reverse, ← List.filter_reverse, List.head?_filter,
    List.find?_eq_some_iff_append]
  apply and_congr_right
  intro _
  constructor
  · rintro ⟨after, before, hcut, hafter⟩
    -- the element found stands behind `before`, counted from the place on
    have hdrop : l.drop n = before.reverse ++ a :: after.reverse := by
      simpa using congrArg List.reverse hcut
    refine ⟨n + before.reverse.length, Nat.le_add_right .., ?_, ?_⟩
    · rw [← List.getElem?_drop, hdrop, List.getElem?_append_right (Nat.le_refl _), Nat.sub_self]
      rfl
    · intro k x hk hx
      obtain ⟨m, rfl⟩ := Nat.exists_eq_add_of_lt hk
      have hmem : after.reverse[m]? = some x := by
        rw [← hx, Nat.add_assoc, Nat.add_assoc, ← List.getElem?_drop, hdrop,
          List.getElem?_append_right (by omega), Nat.add_sub_cancel_left, List.getElem?_cons_succ]
      simpa using hafter x (List.mem_reverse.mp (List.mem_of_getElem? hmem))
  · rintro ⟨j, hj, ha, hlater⟩
    obtain ⟨m, rfl⟩ := Nat.exists_eq_add_of_le hj
    have hm : (l.drop n)[m]? = some a := by rw [List.getElem?_drop, ha]
    refine ⟨((l.drop n).drop (m + 1)).reverse, ((l.drop n).take m).reverse, ?_, ?_⟩
    · obtain ⟨hlt, rfl⟩ := List.getElem?_eq_some_iff.mp hm
      have hcut := List.take_append_drop m (l.drop n)
      rw [List.drop_eq_getElem_cons hlt] at hcut
      simpa using congrArg List.reverse hcut.symm
    · intro x hx
      obtain ⟨k, hk⟩ := List.mem_iff_getElem?.mp (List.mem_reverse.mp hx)
      rw [List.getElem?_drop, List.getElem?_drop] at hk
      simpa using hlater _ x (by omega) hk

namespace Block

/-! ### What can be done to a block -/

/-- What a line, or part of one, does to a block. -/
inductive Change where
  | note (field : HeaderField) (line : Nat)
  | write (entry : HeaderEntry)
  | openWithWake (time : TimeOfDay) (line : Nat)
  | pushActivity (activity : Activity)
deriving DecidableEq, Repr

def Change.isEvent : Change → Bool
  | .openWithWake _ _ | .pushActivity _ => true
  | .note _ _ | .write _ => false

def Change.note? : Change → Option (HeaderField × Nat)
  | .note field line => some (field, line)
  | .write _ | .openWithWake _ _ | .pushActivity _ => none

def change (b : Block) (table : RuleTable) : Change → Block
  | .note field line => (b.noteHeader table field line).1
  | .write entry => b.write entry
  | .openWithWake time line => b.openWithWake time line
  | .pushActivity activity => b.pushActivity activity

/-- What is left of a block after changes, the first one first. -/
def changeAll (b : Block) (table : RuleTable) (history : List Change) : Block :=
  history.foldl (fun b c => b.change table c) b

/-- The block of a day to which nothing has been done. -/
def opened (date : Date) (line : Nat) (dateText : String) : Block := { date, line, dateText }

/-! ### What a history says -/

/-- The header fields noted so far with their lines, in order. -/
def notesIn (history : List Change) : List (HeaderField × Nat) := history.filterMap Change.note?

def fieldsIn (history : List Change) : List HeaderField := (notesIn history).map Prod.fst

/-- The lines on which a field was noted, in order. -/
def linesOf (field : HeaderField) (history : List Change) : List Nat :=
  (notesIn history).filterMap fun note => if field == note.1 then some note.2 else none

/-- Where the fields noted so far, but for one of them, stand in the header order. -/
def otherPositions (table : RuleTable) (field : HeaderField) (history : List Change) : Set Nat :=
  {k | ∃ other ∈ fieldsIn history, other ≠ field ∧ table.position? other = some k}

/-- Whether a header line of a field is neither late nor repeated; remarks never are. -/
def IsTimely (history : List Change) (field : HeaderField) : Prop :=
  field = .remark ∨ (∀ c ∈ history, c.isEvent = false) ∧ field ∉ fieldsIn history

/-- How a header line of a field stands to all that was done before it. -/
inductive Stands (table : RuleTable) (history : List Change) (field : HeaderField) :
    HeaderWrite → Prop
  | afterEvents : field ≠ .remark → (∃ c ∈ history, c.isEvent = true) →
      Stands table history field .afterEvents
  | duplicate {line : Nat} : field ≠ .remark → (∀ c ∈ history, c.isEvent = false) →
      (linesOf field history).getLast? = some line →
      Stands table history field (.duplicate line)
  /-- The other field that is listed last is listed behind this one. -/
  | outOfOrder {later : HeaderField} {i j : Nat} : IsTimely history field →
      table.position? field = some i → table.position? later = some j →
      IsGreatest (otherPositions table field history) j → i < j →
      Stands table history field (.outOfOrder later)
  | fresh : IsTimely history field →
      (∀ i, table.position? field = some i → ∀ k ∈ otherPositions table field history, k ≤ i) →
      Stands table history field .fresh

/-! ### What a block keeps of its history -/

variable {b : Block} {table : RuleTable} {history : List Change} {field : HeaderField}

theorem notes_changeAll (b : Block) (table : RuleTable) (history : List Change) :
    (b.changeAll table history).notes = (notesIn history).reverse ++ b.notes := by
  induction history generalizing b with
  | nil => rfl
  | cons c rest ih =>
    have hrest : (b.changeAll table (c :: rest)).notes = _ := ih (b.change table c)
    rw [hrest]
    cases c with
    | note field line => simp [notesIn, Change.note?, change, noteHeader]
    | write entry =>
      obtain ⟨flags, getup, remarks, hwrite⟩ := b.exists_write_eq entry
      simp [notesIn, List.filterMap_cons, Change.note?, change, hwrite]
    | openWithWake time line => rfl
    | pushActivity activity => rfl

theorem eventsStarted_changeAll (b : Block) (table : RuleTable) (history : List Change) :
    (b.changeAll table history).eventsStarted =
      (b.eventsStarted || history.any Change.isEvent) := by
  induction history generalizing b with
  | nil => simp [changeAll]
  | cons c rest ih =>
    have hrest : (b.changeAll table (c :: rest)).eventsStarted = _ := ih (b.change table c)
    rw [hrest, List.any_cons, ← Bool.or_assoc]
    congr 1
    cases c with
    | note field line => simp [Change.isEvent, change, noteHeader, eventsStarted]
    | write entry =>
      obtain ⟨flags, getup, remarks, hwrite⟩ := b.exists_write_eq entry
      simp [Change.isEvent, change, hwrite, eventsStarted]
    | openWithWake time line => simp [Change.isEvent, change, openWithWake, eventsStarted]
    | pushActivity activity => simp [Change.isEvent, change, pushActivity, eventsStarted]

theorem lookup_changeAll (hb : b.notes = []) (field : HeaderField) :
    (b.changeAll table history).notes.lookup field = (linesOf field history).getLast? := by
  rw [notes_changeAll, hb, List.append_nil, List.lookup_eq_findSome?, ← List.head?_filterMap,
    List.filterMap_reverse, List.head?_reverse]
  rfl

theorem linesOf_eq_nil_iff : linesOf field history = [] ↔ field ∉ fieldsIn history := by
  simp only [linesOf, fieldsIn, List.filterMap_eq_nil_iff, List.mem_map, not_exists, not_and]
  refine forall₂_congr fun note _ => ?_
  simp [@eq_comm _ field]

theorem hasNoted_changeAll (hb : b.notes = []) (other : HeaderField) :
    (b.changeAll table history).hasNoted other = true ↔ other ∈ fieldsIn history := by
  rw [hasNoted, lookup_changeAll hb, Option.isSome_iff_ne_none, Ne, List.getLast?_eq_none_iff,
    linesOf_eq_nil_iff, not_not]

/-! ### The field that is listed last -/

section

variable (hb : b.notes = []) (horder : table.headerOrder.Nodup)
include hb horder

theorem laterNoted?_changeAll_eq_some_iff {later : HeaderField} :
    (b.changeAll table history).laterNoted? table field = some later ↔
      ∃ i j, table.position? field = some i ∧ table.position? later = some j ∧
        IsGreatest (otherPositions table field history) j ∧ i < j := by
  unfold laterNoted?
  cases hi : table.position? field with
  | none => simp
  | some i =>
    rw [getLast?_filter_drop_eq_some_iff, hasNoted_changeAll hb]
    constructor
    · rintro ⟨hnoted, j, hij, hj, hlast⟩
      have hj : table.position? later = some j := (RuleTable.position?_eq_some_iff horder).mpr hj
      refine ⟨i, j, rfl, hj, ⟨⟨later, hnoted, RuleTable.ne_of_position?_lt hi hj hij, hj⟩, ?_⟩, hij⟩
      rintro k ⟨other, hother, -, hk⟩
      by_contra hlt
      -- a noted field listed behind `j` would have been found instead
      have hnot := hlast k other (by omega) ((RuleTable.position?_eq_some_iff horder).mp hk)
      exact absurd ((hasNoted_changeAll hb other).mpr hother) (Bool.eq_false_iff.mp hnot)
    · rintro ⟨i', j, hi', hj, ⟨⟨other, hother, hne, hj'⟩, hgreatest⟩, hij⟩
      obtain rfl : i = i' := Option.some.inj hi'
      have hat := (RuleTable.position?_eq_some_iff horder).mp hj
      have hat' := (RuleTable.position?_eq_some_iff horder).mp hj'
      obtain rfl : later = other := Option.some.inj (hat.symm.trans hat')
      refine ⟨hother, j, hij, hat, ?_⟩
      intro k x hjk hx
      have hk := (RuleTable.position?_eq_some_iff horder).mpr hx
      rw [Bool.eq_false_iff]
      intro hnoted
      have hne := RuleTable.ne_of_position?_lt hi hk (by omega)
      have hle : k ≤ j := hgreatest ⟨x, (hasNoted_changeAll hb x).mp hnoted, hne, hk⟩
      omega

theorem laterNoted?_changeAll_eq_none_iff :
    (b.changeAll table history).laterNoted? table field = none ↔
      ∀ i, table.position? field = some i → ∀ k ∈ otherPositions table field history, k ≤ i := by
  unfold laterNoted?
  cases hi : table.position? field with
  | none => simp
  | some i =>
    rw [List.getLast?_eq_none_iff, List.filter_eq_nil_iff]
    constructor
    · rintro hnone i' hi' k ⟨other, hother, -, hk⟩
      obtain rfl : i = i' := Option.some.inj hi'
      by_contra hlt
      have hat := (RuleTable.position?_eq_some_iff horder).mp hk
      obtain ⟨m, rfl⟩ := Nat.exists_eq_add_of_le (show i + 1 ≤ k by omega)
      rw [← List.getElem?_drop] at hat
      exact hnone other (List.mem_of_getElem? hat) ((hasNoted_changeAll hb other).mpr hother)
    · intro hbefore x hx hnoted
      obtain ⟨m, hm⟩ := List.mem_iff_getElem?.mp hx
      rw [List.getElem?_drop] at hm
      have hk := (RuleTable.position?_eq_some_iff horder).mpr hm
      have hne := RuleTable.ne_of_position?_lt hi hk (by omega)
      have hle := hbefore i rfl _ ⟨x, (hasNoted_changeAll hb x).mp hnoted, hne, hk⟩
      omega

end

/-! ### The judgement on a header line -/

theorem judgeHeader_of_late (hfield : field ≠ .remark) (h : b.eventsStarted = true) :
    b.judgeHeader table field = .afterEvents :=
  if_pos ⟨hfield, h⟩

theorem judgeHeader_of_noted {line : Nat} (hfield : field ≠ .remark) (h : b.eventsStarted = false)
    (hnoted : b.notes.lookup field = some line) :
    b.judgeHeader table field = .duplicate line := by
  simp [judgeHeader, h, hnoted, hfield]

theorem judgeHeader_of_timely
    (h : field = .remark ∨ b.eventsStarted = false ∧ b.notes.lookup field = none) :
    b.judgeHeader table field =
      match b.laterNoted? table field with
      | some later => .outOfOrder later
      | none => .fresh := by
  rcases h with rfl | ⟨hevents, hnotes⟩
  · cases hnotes : b.notes.lookup .remark <;> cases hlater : b.laterNoted? table .remark <;>
      simp [judgeHeader, hnotes, hlater]
  · cases hlater : b.laterNoted? table field <;> simp [judgeHeader, hevents, hnotes, hlater]

section

variable (hb : b.notes = []) (hquiet : b.eventsStarted = false)
  (horder : table.headerOrder.Nodup)
include hb hquiet

theorem isTimely_iff :
    IsTimely history field ↔ field = .remark ∨
      (b.changeAll table history).eventsStarted = false ∧
        (b.changeAll table history).notes.lookup field = none := by
  rw [IsTimely, eventsStarted_changeAll, hquiet, Bool.false_or, lookup_changeAll hb,
    List.getLast?_eq_none_iff, linesOf_eq_nil_iff, List.any_eq_false]
  simp

include horder

/-- **What a block answers to a header line** is how the line stands to all that was done to the
    block before. -/
theorem judgeHeader_changeAll_eq_iff {answer : HeaderWrite} :
    (b.changeAll table history).judgeHeader table field = answer ↔
      Stands table history field answer := by
  have hevents := eventsStarted_changeAll b table history
  rw [hquiet, Bool.false_or] at hevents
  constructor
  · rintro rfl
    by_cases htimely : IsTimely history field
    · rw [judgeHeader_of_timely ((isTimely_iff hb hquiet).mp htimely)]
      split
      next later hlater =>
        obtain ⟨i, j, hi, hj, hgreatest, hij⟩ :=
          (laterNoted?_changeAll_eq_some_iff hb horder).mp hlater
        exact .outOfOrder htimely hi hj hgreatest hij
      next hnone => exact .fresh htimely ((laterNoted?_changeAll_eq_none_iff hb horder).mp hnone)
    · have hfield : field ≠ .remark := fun h => htimely (.inl h)
      by_cases hany : history.any Change.isEvent = true
      · rw [judgeHeader_of_late hfield (hevents.trans hany)]
        exact .afterEvents hfield (List.any_eq_true.mp hany)
      · have hnone : ∀ c ∈ history, c.isEvent = false := by simpa using hany
        have hnoted : linesOf field history ≠ [] := by
          rw [Ne, linesOf_eq_nil_iff]
          exact fun h => htimely (.inr ⟨hnone, h⟩)
        have hlast := List.getLast?_eq_some_getLast hnoted
        rw [judgeHeader_of_noted hfield (hevents.trans (Bool.eq_false_iff.mpr hany))
          ((lookup_changeAll hb field).trans hlast)]
        exact .duplicate hfield hnone hlast
  · intro h
    cases h with
    | afterEvents hfield hany =>
      exact judgeHeader_of_late hfield (hevents.trans (List.any_eq_true.mpr hany))
    | duplicate hfield hnone hlast =>
      have hquiet' : history.any Change.isEvent = false := by simpa using hnone
      exact judgeHeader_of_noted hfield (hevents.trans hquiet')
        ((lookup_changeAll hb field).trans hlast)
    | outOfOrder htimely hi hj hgreatest hij =>
      rw [judgeHeader_of_timely ((isTimely_iff hb hquiet).mp htimely),
        (laterNoted?_changeAll_eq_some_iff hb horder).mpr ⟨_, _, hi, hj, hgreatest, hij⟩]
    | fresh htimely hplace =>
      rw [judgeHeader_of_timely ((isTimely_iff hb hquiet).mp htimely),
        (laterNoted?_changeAll_eq_none_iff hb horder).mpr hplace]

end

/-- As long as nothing has happened, a header line is fresh when it keeps the header order. -/
theorem stands_fresh_iff (hquiet : ∀ c ∈ history, c.isEvent = false) :
    Stands table history field .fresh ↔ table.Follows (fieldsIn history) field := by
  have htimely : IsTimely history field ↔ field = .remark ∨ field ∉ fieldsIn history :=
    or_congr_right (and_iff_right hquiet)
  constructor
  · rintro (_ | _ | _ | ⟨hnew, hplace⟩)
    refine ⟨htimely.mp hnew, ?_⟩
    intro i hi other hother k hk
    by_cases hsame : other = field
    · subst hsame
      exact Nat.le_of_eq (Option.some.inj (hk.symm.trans hi))
    · exact hplace i hi k ⟨other, hother, hsame, hk⟩
  · rintro ⟨hnew, hplace⟩
    refine .fresh (htimely.mpr hnew) ?_
    rintro i hi k ⟨other, hother, -, hk⟩
    exact hplace i hi other hother k hk

theorem changeAll_append (b : Block) (table : RuleTable) (first second : List Change) :
    b.changeAll table (first ++ second) = (b.changeAll table first).changeAll table second :=
  List.foldl_append

theorem fieldsIn_append (first second : List Change) :
    fieldsIn (first ++ second) = fieldsIn first ++ fieldsIn second := by
  simp [fieldsIn, notesIn]

end Block

/-! ### Lines as changes -/

/-- The field of a header line whose value the field accepts. -/
def LogLine.header? (l : LogLine) : Option HeaderField :=
  match l.kind with
  | .header field value _ => (HeaderEntry.read? field value).map fun _ => field
  | _ => none

theorem LogLine.exists_of_header? {l : LogLine} {field : HeaderField}
    (h : l.header? = some field) :
    ∃ value column entry, l.kind = .header field value column ∧
      HeaderEntry.read? field value = some entry := by
  obtain ⟨number, text, kind⟩ := l
  cases kind with
  | header written value column =>
    obtain ⟨entry, hentry, rfl⟩ := Option.map_eq_some_iff.mp h
    exact ⟨value, column, entry, rfl, hentry⟩
  | blank | date | activity | invalid => cases h

namespace Block

/-- A line notes its field if it is a header line, and makes something happen if it is an activity
    line. -/
theorem exists_changes_readLine (b : Block) (setup : ScanSetup) (l : LogLine) :
    ∃ changes, (b.readLine setup l.number l.text l.kind).1 = b.changeAll setup.table changes ∧
      fieldsIn changes = l.header?.toList ∧
      changes.any Change.isEvent = l.activity?.isSome := by
  obtain ⟨number, text, kind⟩ := l
  cases kind with
  | blank | date | invalid => exact ⟨[], rfl, rfl, rfl⟩
  | header field value column =>
    cases hread : HeaderEntry.read? field value with
    | none =>
      refine ⟨[], ?_, ?_, rfl⟩
      · simp [readLine, readHeader, hread, changeAll]
      · simp [LogLine.header?, hread, fieldsIn, notesIn]
    | some entry =>
      refine ⟨[.note field number, .write entry], ?_, ?_, rfl⟩
      · simp [readLine, readHeader, hread, changeAll, change]
      · simp [LogLine.header?, hread, fieldsIn, notesIn, List.filterMap_cons, Change.note?]
  | activity written =>
    simp only [readLine, readActivity]
    split
    · exact ⟨[.openWithWake written.endTime number], rfl, rfl, rfl⟩
    · exact ⟨[.pushActivity (b.nextActivity setup number written).1], rfl, rfl, rfl⟩

/-- **Reading lines** is one history of changes, in which the header lines are noted in order. -/
theorem exists_history_readAll (b : Block) (setup : ScanSetup) (lines : List LogLine) :
    ∃ history, (b.readAll setup lines).1 = b.changeAll setup.table history ∧
      fieldsIn history = lines.filterMap LogLine.header? ∧
      history.any Change.isEvent = lines.any fun l => l.activity?.isSome := by
  induction lines generalizing b with
  | nil => exact ⟨[], rfl, rfl, rfl⟩
  | cons l rest ih =>
    obtain ⟨changes, hread, hfields, hevents⟩ := b.exists_changes_readLine setup l
    obtain ⟨history, hrest, hfields', hevents'⟩ :=
      ih (b.readLine setup l.number l.text l.kind).1
    refine ⟨changes ++ history, ?_, ?_, ?_⟩
    · rw [changeAll_append, ← hread]
      exact hrest
    · rw [fieldsIn_append, hfields, hfields', List.filterMap_cons]
      cases l.header? <;> rfl
    · rw [List.any_append, hevents, hevents', List.any_cons]

end Block

/-! ### What is raised about header lines -/

def headerOrderCodes : List Code := [.duplicateHeader, .headerOutOfOrder]

theorem Block.raises_nothing_iff {b : Block} {setup : ScanSetup} {l : LogLine}
    {field : HeaderField} (hl : l.header? = some field) (hquiet : b.eventsStarted = false) :
    (∀ d ∈ (b.readLine setup l.number l.text l.kind).2, d.code ∉ headerOrderCodes) ↔
      b.judgeHeader setup.table field = .fresh := by
  obtain ⟨value, column, entry, hkind, hread⟩ := LogLine.exists_of_header? hl
  rw [hkind]
  simp only [readLine, readHeader, hread, noteHeader, headerFault?, hquiet, Bool.false_eq_true,
    and_false, if_false]
  cases b.judgeHeader setup.table field <;>
    simp [headerOrderCodes, ScanSetup.finding, Diagnostic.ofCode, Diagnostic.withSpan]

section

variable {setup : ScanSetup} {lines : List String} {o : Opening}

/-- A line in front of a day is taken without a word when it keeps the header order. -/
theorem Opening.raises_nothing_iff (ho : o ∈ setup.openings lines)
    (horder : setup.table.headerOrder.Nodup) {between rest : List LogLine} {l : LogLine}
    (hblock : o.place.block = between ++ l :: rest)
    (hquiet : ∀ m ∈ between, m.activity? = none) {field : HeaderField}
    (hl : l.header? = some field) :
    (∀ d ∈ (setup.scan lines).2, d.line = l.number → d.code ∉ headerOrderCodes) ↔
      setup.table.Follows (between.filterMap LogLine.header?) field := by
  obtain ⟨history, hread, hfields, hevents⟩ :=
    o.start.exists_history_readAll setup between
  have hnone : history.any Block.Change.isEvent = false := by
    rw [hevents, List.any_eq_false]
    intro m hm
    simp [hquiet m hm]
  have hstarted : (o.start.readAll setup between).1.eventsStarted = false := by
    rw [hread, Block.eventsStarted_changeAll, hnone]
    rfl
  rw [← hfields, ← Block.stands_fresh_iff (by simpa using hnone),
    ← Block.judgeHeader_changeAll_eq_iff (b := o.start) rfl rfl horder, ← hread,
    ← Block.raises_nothing_iff hl hstarted]
  constructor
  · intro h d hd
    obtain ⟨hscan, hline⟩ := (mem_scan_iff_of_block ho hblock).mpr hd
    exact h d hscan hline
  · intro h d hd hline
    exact h d ((mem_scan_iff_of_block ho hblock).mp ⟨hd, hline⟩)

/-- The same of all lines in front of a day, by induction from the last one. -/
theorem Opening.raises_nothing_iff_orders (ho : o ∈ setup.openings lines)
    (horder : setup.table.headerOrder.Nodup) {headers rest : List LogLine}
    (hblock : o.place.block = headers ++ rest) (hquiet : ∀ l ∈ headers, l.activity? = none) :
    (∀ l ∈ headers, l.header?.isSome → ∀ d ∈ (setup.scan lines).2, d.line = l.number →
        d.code ∉ headerOrderCodes) ↔
      setup.table.Orders (headers.filterMap LogLine.header?) := by
  induction headers using List.reverseRecOn generalizing rest with
  | nil => simp [RuleTable.orders_nil]
  | append_singleton between l ih =>
    rw [List.append_assoc, List.singleton_append] at hblock
    have hbetween := ih hblock fun m hm => hquiet m (List.mem_append_left _ hm)
    rw [List.forall_mem_append, List.forall_mem_singleton, hbetween, List.filterMap_append]
    cases hl : l.header? with
    | none => simp [hl]
    | some field =>
      rw [List.filterMap_cons_some hl, List.filterMap_nil, RuleTable.orders_concat,
        ← Opening.raises_nothing_iff ho horder hblock
          (fun m hm => hquiet m (List.mem_append_left _ hm)) hl]
      simp

end

/-! ### The header order -/

/-- **What a block answers to a header line is how the line stands to everything done to the block
    before**, and the header lines in front of what happens on a day are taken without a word just
    when none but remarks comes twice and the listed ones come in the order of the rules. -/
theorem Block.noteHeader_stands {config : RuleConfig} {setup : ScanSetup}
    (h : RuleTable.ofConfig config = .ok setup.table) :
    (∀ date dateLine dateText history field line answer,
      (((opened date dateLine dateText).changeAll setup.table history).noteHeader setup.table field
        line).2 = answer ↔ Stands setup.table history field answer) ∧
    ∀ lines, ∀ o ∈ setup.openings lines,
      let headers := o.place.block.takeWhile fun l => l.activity?.isNone
      (∀ l ∈ headers, l.header?.isSome → ∀ d ∈ (setup.scan lines).2, d.line = l.number →
          d.code ≠ .duplicateHeader ∧ d.code ≠ .headerOutOfOrder) ↔
        setup.table.Orders (headers.filterMap LogLine.header?) := by
  have horder := RuleTable.nodup_headerOrder_of_ofConfig h
  constructor
  · intro date dateLine dateText history field line answer
    exact judgeHeader_changeAll_eq_iff rfl rfl horder
  · intro lines o ho
    dsimp only
    rw [← Opening.raises_nothing_iff_orders ho horder List.takeWhile_append_dropWhile.symm
      fun l hl => by simpa using List.mem_takeWhile_imp hl]
    simp [headerOrderCodes]

/-- The listed field that comes latest is named, whatever was noted last; and remarks may come again
    in front of a field that is not listed. -/
theorem Block.noteHeader_stands_remarks :
    let setup : ScanSetup := { table := {}, fallbackYear := 2025, file := "log.txt" }
    let history : List Change := [.note .remark 2, .note .sleep 3, .note .exercise 4]
    let lines := ["2025_01_15", "Status:1", "Remark: a", "Remark: b", "Exercise:0", "0700 wake",
      "Sleep:1"]
    RuleTable.ofConfig {} = .ok setup.table ∧
      Stands setup.table history .status (.outOfOrder .remark) ∧
      ∃ o ∈ setup.openings lines, (o.place.block.filterMap LogLine.header?).length = 5 ∧
        ∀ l ∈ o.place.block.takeWhile fun l => l.activity?.isNone, l.header?.isSome →
          ∀ d ∈ (setup.scan lines).2, d.line = l.number →
            d.code ≠ .duplicateHeader ∧ d.code ≠ .headerOutOfOrder := by
  intro setup history lines
  have hsetup : RuleTable.ofConfig {} = .ok setup.table := by decide +kernel
  obtain ⟨hstands, hscan⟩ := noteHeader_stands hsetup
  have hopened : ∃ o ∈ setup.openings lines, (o.place.block.filterMap LogLine.header?).length = 5 ∧
      setup.table.Orders ((o.place.block.takeWhile fun l => l.activity?.isNone).filterMap
        LogLine.header?) := by
    decide +kernel
  obtain ⟨o, ho, hheaders, horders⟩ := hopened
  refine ⟨hsetup, ?_, o, ho, hheaders, (hscan lines o ho).mpr horders⟩
  exact (hstands ⟨2025, 1, 15, by decide⟩ 1 "2025_01_15" history .status 5 _).mp (by decide)

end Daybook
