/-
  Daybook/Mapping.lean
  ====================
  **Mappings from text.**  A `Mapping` keeps its entries in the code point order
  of their keys, each key once, so two mappings with the same contents are the
  same value.  Inserting replaces what a key had before: of several entries for
  one key the last wins (`get?_insert`).
-/

namespace Daybook

/-- The order of entries: strictly increasing keys. -/
def Mapping.KeyLT {α : Type} (a b : String × α) : Prop := compare a.1 b.1 = .lt

/-- Entries with pairwise different keys, in key order. -/
structure Mapping (α : Type) where
  entries : List (String × α)
  sorted : entries.Pairwise Mapping.KeyLT

namespace Mapping

variable {α β : Type}

@[ext] theorem ext {m n : Mapping α} (h : m.entries = n.entries) : m = n := by
  cases m; cases n; cases h; rfl

instance [DecidableEq α] : DecidableEq (Mapping α) := fun m n =>
  if h : m.entries = n.entries then isTrue (ext h) else isFalse fun e => h (e ▸ rfl)

instance [Repr α] : Repr (Mapping α) := ⟨fun m n => reprPrec m.entries n⟩

def empty : Mapping α := ⟨[], .nil⟩

instance : Inhabited (Mapping α) := ⟨empty⟩

/-! ### Inserting -/

/-- Puts an entry at its place among entries in key order, replacing one with the same key. -/
def insertEntry (key : String) (value : α) : List (String × α) → List (String × α)
  | [] => [(key, value)]
  | (k, v) :: rest =>
    match compare key k with
    | .lt => (key, value) :: (k, v) :: rest
    | .eq => (key, value) :: rest
    | .gt => (k, v) :: insertEntry key value rest

theorem mem_insertEntry {key : String} {value : α} {entry : String × α}
    {entries : List (String × α)} (h : entry ∈ insertEntry key value entries) :
    entry = (key, value) ∨ entry ∈ entries := by
  induction entries with
  | nil => simpa [insertEntry] using h
  | cons head rest ih =>
    obtain ⟨k, v⟩ := head
    unfold insertEntry at h
    split at h
    · rcases List.mem_cons.1 h with h | h
      · exact .inl h
      · exact .inr h
    · rcases List.mem_cons.1 h with h | h
      · exact .inl h
      · exact .inr (List.mem_cons_of_mem _ h)
    · rcases List.mem_cons.1 h with h | h
      · exact .inr (h ▸ List.mem_cons_self)
      · exact (ih h).imp id (List.mem_cons_of_mem _)

theorem pairwise_insertEntry (key : String) (value : α) {entries : List (String × α)}
    (h : entries.Pairwise KeyLT) : (insertEntry key value entries).Pairwise KeyLT := by
  induction entries with
  | nil => simp [insertEntry]
  | cons head rest ih =>
    obtain ⟨k, v⟩ := head
    obtain ⟨first, tail⟩ := List.pairwise_cons.1 h
    unfold insertEntry
    split
    next before =>
      refine List.pairwise_cons.2 ⟨fun entry mem => ?_, h⟩
      rcases List.mem_cons.1 mem with rfl | mem
      · exact before
      · exact Std.TransCmp.lt_trans before (first entry mem)
    next same =>
      have : key = k := Std.LawfulEqCmp.eq_of_compare same
      subst this
      exact List.pairwise_cons.2 ⟨first, tail⟩
    next after =>
      refine List.pairwise_cons.2 ⟨fun entry mem => ?_, ih tail⟩
      rcases mem_insertEntry mem with rfl | mem
      · exact Std.OrientedCmp.lt_of_gt after
      · exact first entry mem

/-- Gives `key` the value `value`, whatever it had before. -/
def insert (m : Mapping α) (key : String) (value : α) : Mapping α :=
  ⟨insertEntry key value m.entries, pairwise_insertEntry key value m.sorted⟩

/-- The mapping with these entries; of several for one key the last wins. -/
def ofList (entries : List (String × α)) : Mapping α :=
  entries.foldl (fun m entry => m.insert entry.1 entry.2) empty

/-! ### Looking up -/

def get? (m : Mapping α) (key : String) : Option α := m.entries.lookup key

theorem lookup_insertEntry (key key' : String) (value : α) (entries : List (String × α)) :
    (insertEntry key value entries).lookup key' =
      if key' = key then some value else entries.lookup key' := by
  induction entries with
  | nil =>
    by_cases same : key' = key
    · simp [insertEntry, same]
    · simp [insertEntry, same]
  | cons head rest ih =>
    obtain ⟨k, v⟩ := head
    by_cases same : key' = key
    · subst same
      unfold insertEntry
      split
      next => simp
      next => simp
      next after =>
        have other : (key' == k) = false := by
          rw [beq_eq_false_iff_ne]
          intro equal
          simp [equal] at after
        simpa [List.lookup_cons, other] using ih
    · have other : (key' == key) = false := by simpa using same
      unfold insertEntry
      split
      next => simp [List.lookup_cons, other, same]
      next equal =>
        have : key = k := Std.LawfulEqCmp.eq_of_compare equal
        subst this
        simp [List.lookup_cons, other, same]
      next => simp only [List.lookup_cons, ih, same, if_false]

@[simp] theorem get?_insert (m : Mapping α) (key key' : String) (value : α) :
    (m.insert key value).get? key' = if key' = key then some value else m.get? key' :=
  lookup_insertEntry key key' value m.entries

@[simp] theorem get?_empty (key : String) : (empty : Mapping α).get? key = none := rfl

/-! ### Whole mappings -/

def keys (m : Mapping α) : List String := m.entries.map (·.1)

def values (m : Mapping α) : List α := m.entries.map (·.2)

def map (f : α → β) (m : Mapping α) : Mapping β :=
  ⟨m.entries.map fun entry => (entry.1, f entry.2), by
    rw [List.pairwise_map]
    exact m.sorted⟩

end Mapping

end Daybook
