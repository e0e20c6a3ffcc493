/-
  Daybook/Proofs/Mapping.lean
  ===========================
  **Keys.**  A mapping has each of its keys once, so looking a key up finds the
  entry that is there, and no other.  Of several entries for one key a mapping keeps
  the last (`get?_ofList`).  Items that are picked out for one key after the other
  are divided among the keys: none is lost and none is picked twice
  (`perm_flatMap_filter`).
-/
import Daybook.Mapping
import Mathlib.Data.List.Induction
import Mathlib.Data.List.Perm.Basic
import Mathlib.Data.String.Basic
import Mathlib.Order.Bounds.Basic

namespace Daybook

namespace Mapping

/-! ### Different keys -/

theorem KeyLT.ne {α : Type} {a b : String × α} (h : KeyLT a b) : a.1 ≠ b.1 := by
  intro heq
  unfold KeyLT at h
  simp [heq] at h

theorem KeyLT.lt {α : Type} {a b : String × α} (h : KeyLT a b) : a.1 < b.1 :=
  compare_lt_iff_lt.mp h

theorem nodup_keys {α : Type} (m : Mapping α) : m.keys.Nodup :=
  List.pairwise_map.mpr (m.sorted.imp KeyLT.ne)

theorem key_lt_of_getElem? {α : Type} {m : Mapping α} {i j : Nat} {a b : String × α}
    (ha : m.entries[i]? = some a) (hb : m.entries[j]? = some b) (hij : i < j) : a.1 < b.1 := by
  obtain ⟨hi, rfl⟩ := List.getElem?_eq_some_iff.mp ha
  obtain ⟨hj, rfl⟩ := List.getElem?_eq_some_iff.mp hb
  exact (List.pairwise_iff_getElem.mp m.sorted i j hi hj hij).lt

/-- Each key stands at one place. -/
theorem index_eq_of_key_eq {α : Type} {m : Mapping α} {i j : Nat} {a b : String × α}
    (ha : m.entries[i]? = some a) (hb : m.entries[j]? = some b) (hkey : a.1 = b.1) : i = j := by
  rcases Nat.lt_trichotomy i j with hlt | heq | hgt
  · exact absurd hkey (key_lt_of_getElem? ha hb hlt).ne
  · exact heq
  · exact absurd hkey (key_lt_of_getElem? hb ha hgt).ne'

/-! ### Looking up -/

theorem mem_of_get?_eq_some {α : Type} {m : Mapping α} {key : String} {value : α}
    (h : m.get? key = some value) : (key, value) ∈ m.entries := by
  obtain ⟨before, after, hentries, -⟩ := List.lookup_eq_some_iff.mp h
  rw [hentries]
  exact List.mem_append_right _ List.mem_cons_self

theorem get?_eq_some_of_mem {α : Type} {m : Mapping α} {key : String} {value : α}
    (h : (key, value) ∈ m.entries) : m.get? key = some value := by
  obtain ⟨before, after, hentries⟩ := List.append_of_mem h
  refine List.lookup_eq_some_iff.mpr ⟨before, after, hentries, ?_⟩
  intro entry hentry
  have hsorted := m.sorted
  rw [hentries] at hsorted
  have hlt : compare entry.1 key = .lt :=
    (List.pairwise_append.mp hsorted).2.2 entry hentry _ List.mem_cons_self
  rw [bne_iff_ne]
  rintro rfl
  simp at hlt

theorem lookup_eq_none_of_lt {α : Type} {key : String} {entries : List (String × α)}
    (h : ∀ entry ∈ entries, compare key entry.1 = .lt) : entries.lookup key = none := by
  apply List.lookup_eq_none_iff.mpr
  intro entry hentry
  rw [bne_iff_ne]
  intro heq
  have hlt := h entry hentry
  simp [heq] at hlt

/-! ### Adding to the list of a key -/

/-- Adding an item to the list of a key adds it to the lists of all keys. -/
theorem perm_insertEntry_append {α : Type} (key : String) (x : α)
    {entries : List (String × List α)} (h : entries.Pairwise KeyLT) :
    ((insertEntry key ((entries.lookup key).getD [] ++ [x]) entries).map (·.2)).flatten.Perm
      ((entries.map (·.2)).flatten ++ [x]) := by
  induction entries with
  | nil => simp [insertEntry]
  | cons head rest ih =>
    obtain ⟨k, v⟩ := head
    obtain ⟨hfirst, hrest⟩ := List.pairwise_cons.mp h
    cases hcompare : compare key k with
    | lt =>
      have hnone : ((k, v) :: rest).lookup key = none := by
        apply lookup_eq_none_of_lt
        intro entry hentry
        rcases List.mem_cons.mp hentry with rfl | hentry
        · exact hcompare
        · exact Std.TransCmp.lt_trans hcompare (hfirst entry hentry)
      simp only [insertEntry, hcompare, hnone]
      simpa using (List.perm_append_singleton x (v ++ (rest.map (·.2)).flatten)).symm
    | eq =>
      obtain rfl : key = k := Std.LawfulEqCmp.eq_of_compare hcompare
      simp only [insertEntry, hcompare, List.lookup_cons_self, Option.getD_some, List.map_cons,
        List.flatten_cons, List.append_assoc]
      exact (List.perm_append_singleton x _).symm.append_left v
    | gt =>
      have hne : (key == k) = false := by
        rw [beq_eq_false_iff_ne]
        rintro rfl
        simp at hcompare
      simp only [insertEntry, hcompare, List.lookup_cons, hne, List.map_cons, List.flatten_cons,
        List.append_assoc]
      exact (ih hrest).append_left v

/-! ### Several entries for one key -/

section

variable {α β : Type}

theorem ofList_append_singleton (entries : List (String × α)) (entry : String × α) :
    ofList (entries ++ [entry]) = (ofList entries).insert entry.1 entry.2 := by
  unfold ofList
  rw [List.foldl_append]
  rfl

theorem mem_of_mem_ofList {entries : List (String × α)} {entry : String × α}
    (h : entry ∈ (ofList entries).entries) : entry ∈ entries := by
  induction entries using List.reverseRecOn with
  | nil => cases h
  | append_singleton front last ih =>
    rw [ofList_append_singleton] at h
    rcases mem_insertEntry h with rfl | h
    · exact List.mem_append_right _ List.mem_cons_self
    · exact List.mem_append_left _ (ih h)

/-- Of several entries for one key the last one wins. -/
theorem get?_ofList (entries : List (String × α)) (key : String) :
    (ofList entries).get? key =
      (entries.filter fun entry => entry.1 = key).getLast?.map (·.2) := by
  induction entries using List.reverseRecOn with
  | nil => rfl
  | append_singleton front last ih =>
    rw [ofList_append_singleton, get?_insert, ih, List.filter_append, List.getLast?_append]
    by_cases hkey : last.1 = key
    · simp [hkey]
    · simp [hkey, Ne.symm hkey]

/-- The last of some entries in order is the one with the greatest key. -/
theorem getLast?_eq_some_iff {entries : List (String × α)} (hsorted : entries.Pairwise KeyLT)
    {entry : String × α} :
    entries.getLast? = some entry ↔
      entry ∈ entries ∧ ∀ other ∈ entries, other.1 ≤ entry.1 := by
  have hgreatest {last : String × α} (hlast : entries.getLast? = some last) :
      ∀ other ∈ entries, other = last ∨ other.1 < last.1 := by
    obtain ⟨front, rfl⟩ := List.getLast?_eq_some_iff.mp hlast
    intro other hother
    rcases List.mem_append.mp hother with hother | hother
    · exact .inr ((List.pairwise_append.mp hsorted).2.2 other hother last List.mem_cons_self).lt
    · exact .inl (List.mem_singleton.mp hother)
  constructor
  · intro hlast
    refine ⟨List.mem_of_getLast? hlast, fun other hother => ?_⟩
    rcases hgreatest hlast other hother with rfl | hlt
    · exact le_refl _
    · exact hlt.le
  · rintro ⟨hmem, hall⟩
    cases hlast : entries.getLast? with
    | none =>
      rw [List.getLast?_eq_none_iff] at hlast
      rw [hlast] at hmem
      cases hmem
    | some last =>
      rcases hgreatest hlast entry hmem with rfl | hlt
      · rfl
      · exact absurd (hall last (List.mem_of_getLast? hlast)) (not_le.mpr hlt)

/-- A mapping built with other keys finds what stands under the last of the keys that become the
    same. -/
theorem get?_ofList_map_eq_some_iff {m : Mapping α} {f : String → String} {g : α → β}
    {key : String} {value : β} :
    (ofList (m.entries.map fun entry => (f entry.1, g entry.2))).get? key = some value ↔
      ∃ raw a, IsGreatest {k | k ∈ m.keys ∧ f k = key} raw ∧ m.get? raw = some a ∧ value = g a := by
  have hsorted : (m.entries.filter fun entry => f entry.1 = key).Pairwise KeyLT :=
    m.sorted.filter _
  rw [get?_ofList, List.filter_map, List.getLast?_map, Option.map_map, Option.map_eq_some_iff]
  constructor
  · rintro ⟨⟨raw, a⟩, hlast, rfl⟩
    obtain ⟨hmem, hall⟩ := (getLast?_eq_some_iff hsorted).mp hlast
    obtain ⟨hmem, hkey⟩ := List.mem_filter.mp hmem
    refine ⟨raw, a, ⟨⟨List.mem_map_of_mem hmem, by simpa using hkey⟩, ?_⟩,
      get?_eq_some_of_mem hmem, rfl⟩
    rintro k ⟨hk, hsame⟩
    obtain ⟨other, hother, rfl⟩ := List.mem_map.mp hk
    exact hall other (List.mem_filter.mpr ⟨hother, by simpa using hsame⟩)
  · rintro ⟨raw, a, ⟨⟨-, hkey⟩, hgreatest⟩, hget, rfl⟩
    refine ⟨(raw, a), (getLast?_eq_some_iff hsorted).mpr ⟨?_, ?_⟩, rfl⟩
    · exact List.mem_filter.mpr ⟨mem_of_get?_eq_some hget, by simpa using hkey⟩
    · intro other hother
      obtain ⟨hother, hsame⟩ := List.mem_filter.mp hother
      exact hgreatest ⟨List.mem_map_of_mem hother, by simpa using hsame⟩

theorem get?_ofList_map_eq_none_iff {m : Mapping α} {f : String → String} {g : α → β}
    {key : String} :
    (ofList (m.entries.map fun entry => (f entry.1, g entry.2))).get? key = none ↔
      ∀ raw ∈ m.keys, f raw ≠ key := by
  rw [get?_ofList, Option.map_eq_none_iff, List.getLast?_eq_none_iff, List.filter_eq_nil_iff]
  simp only [List.forall_mem_map, keys, decide_eq_true_eq, Ne]

/-- Searching the entries from the front finds the first of the keys that become the same. -/
theorem exists_isLeast_of_find? {m : Mapping α} {f : String → String} {g : α → β} {key : String}
    {entry : String × β}
    (h : (m.entries.map fun entry => (f entry.1, g entry.2)).find? (fun entry => entry.1 = key) =
      some entry) :
    ∃ raw a, IsLeast {k | k ∈ m.keys ∧ f k = key} raw ∧ m.get? raw = some a ∧ entry.2 = g a := by
  rw [List.find?_map, Option.map_eq_some_iff] at h
  obtain ⟨⟨raw, a⟩, hfind, rfl⟩ := h
  obtain ⟨hkey, before, after, hentries, hbefore⟩ := List.find?_eq_some_iff_append.mp hfind
  have hmem : (raw, a) ∈ m.entries := List.mem_of_find?_eq_some hfind
  have hsorted := m.sorted
  rw [hentries] at hsorted
  refine ⟨raw, a, ⟨⟨List.mem_map_of_mem hmem, by simpa using hkey⟩, ?_⟩,
    get?_eq_some_of_mem hmem, rfl⟩
  rintro k ⟨hk, hsame⟩
  obtain ⟨other, hother, rfl⟩ := List.mem_map.mp hk
  rw [hentries] at hother
  rcases List.mem_append.mp hother with hother | hother
  · have hdiffers := hbefore other hother
    simp [hsame] at hdiffers
  · rcases List.mem_cons.mp hother with rfl | hother
    · exact le_refl _
    · exact ((List.pairwise_cons.mp (List.pairwise_append.mp hsorted).2.1).1 other hother).lt.le

end

end Mapping

/-! ### Items by key -/

/-- Items that are picked out for one key after the other are all picked, each once. -/
theorem perm_flatMap_filter {α κ : Type} [BEq κ] [LawfulBEq κ] (keyOf : α → κ) {keys : List κ}
    (hkeys : keys.Nodup) {items : List α} (hitems : ∀ item ∈ items, keyOf item ∈ keys) :
    (keys.flatMap fun key => items.filter fun item => keyOf item == key).Perm items := by
  induction keys generalizing items with
  | nil =>
    cases items with
    | nil => exact .refl _
    | cons item rest => cases hitems item List.mem_cons_self
  | cons key keys ih =>
    obtain ⟨hkey, hkeys⟩ := List.nodup_cons.mp hkeys
    let others := items.filter fun item => !(keyOf item == key)
    have hothers : ∀ item ∈ others, keyOf item ∈ keys := by
      intro item hitem
      obtain ⟨hitem, hne⟩ := List.mem_filter.mp hitem
      rcases List.mem_cons.mp (hitems item hitem) with heq | hmem
      · simp [heq] at hne
      · exact hmem
    have hrest : (keys.flatMap fun key => others.filter fun item => keyOf item == key) =
        keys.flatMap fun key => items.filter fun item => keyOf item == key := by
      apply List.flatMap_congr
      intro key' hkey'
      rw [List.filter_filter]
      apply List.filter_congr
      intro item _
      by_cases heq : keyOf item = key'
      · have hne : key' ≠ key := fun h => hkey (h ▸ hkey')
        simp [heq, hne]
      · simp [heq]
    rw [List.flatMap_cons, ← hrest]
    exact ((ih hkeys hothers).append_left _).trans (List.filter_append_perm _ items)

end Daybook
