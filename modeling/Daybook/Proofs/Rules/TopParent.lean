/-
  Daybook/Proofs/Rules/TopParent.lean
  ===================================
  **The longest key wins.**  The keys that a path is under are prefixes of one text,
  so of two of them the longer one continues the shorter, and it has more bytes.
  The keys of a table stand in descending order of their bytes; so the first that a
  path is under is the longest.  Keys that became the same by trimming
  keep their order, because sorting is stable, and the first of them has the say.
-/
import Daybook.Proofs.Mapping
import Daybook.Proofs.Rules.Table
import Daybook.Rules.Resolve

namespace Daybook

open Daybook.Text

/-! ### Segments -/

/-- Whether a path is `head` or continues it with further segments. -/
def IsUnder (head path : String) : Prop :=
  path = head ∨ ∃ rest, path = head ++ segmentSeparator.toString ++ rest

/-- Whether a path is `tail` or leads to it through other segments. -/
def LeadsTo (path tail : String) : Prop :=
  path = tail ∨ ∃ front, path = front ++ segmentSeparator.toString ++ tail

theorem IsUnder.isPrefix {head path : String} (h : IsUnder head path) :
    head.toList <+: path.toList := by
  rcases h with rfl | ⟨rest, rfl⟩
  · exact List.prefix_refl _
  · rw [String.append_assoc, String.toList_append]
    exact List.prefix_append _ _

theorem isUnder_eq_true_iff {head path : String} :
    isUnder head path = true ↔ IsUnder head path := by
  have hcontinues {rest : List Char} (hrest : head.toList ++ rest = path.toList) (tail : String) :
      path = head ++ segmentSeparator.toString ++ tail ↔
        rest = segmentSeparator :: tail.toList := by
    rw [← String.toList_inj, ← hrest, String.append_assoc, String.toList_append,
      List.append_cancel_left_eq]
    simp [Char.toString]
  unfold isUnder
  cases hrest : head.toList.isPrefixOf? path.toList with
  | none =>
    constructor
    · intro h
      cases h
    · intro h
      obtain ⟨rest, happend⟩ := h.isPrefix
      rw [List.isPrefixOf?_eq_some_iff_append_eq.mpr happend] at hrest
      cases hrest
  | some rest =>
    rw [List.isPrefixOf?_eq_some_iff_append_eq] at hrest
    cases rest with
    | nil =>
      rw [List.append_nil, String.toList_inj] at hrest
      simp [IsUnder, hrest]
    | cons c tail =>
      have hlonger : path ≠ head := by
        rintro rfl
        simp at hrest
      constructor
      · intro h
        have hc : c = segmentSeparator := by simpa using h
        exact .inr ⟨String.ofList tail, (hcontinues hrest _).mpr (by simp [hc])⟩
      · rintro (heq | ⟨rest, heq⟩)
        · exact absurd heq hlonger
        · simp [((hcontinues hrest _).mp heq)]

instance (head path : String) : Decidable (IsUnder head path) :=
  decidable_of_iff _ isUnder_eq_true_iff

/-- Among the prefixes of one text those with more bytes are those with more characters. -/
theorem length_le_of_utf8ByteSize_le {a b path : String} (ha : a.toList <+: path.toList)
    (hb : b.toList <+: path.toList) (h : a.utf8ByteSize ≤ b.utf8ByteSize) :
    a.length ≤ b.length := by
  by_contra hlt
  have hlength : b.toList.length ≤ a.toList.length := by
    rw [String.length_toList, String.length_toList]
    omega
  obtain ⟨rest, hrest⟩ := List.prefix_of_prefix_length_le hb ha hlength
  have happend : a = b ++ String.ofList rest := by
    rw [← String.toList_inj, String.toList_append, String.toList_ofList, hrest]
  have hbytes : (String.ofList rest).utf8ByteSize = 0 := by
    rw [happend, String.utf8ByteSize_append] at h
    omega
  rw [String.utf8ByteSize_eq_zero_iff] at hbytes
  rw [happend, hbytes] at hlt
  simp at hlt

namespace RuleTable

/-! ### The order of trial -/

theorem triedBefore_iff {a b : String × String} :
    triedBefore a b = true ↔
      b.1.utf8ByteSize < a.1.utf8ByteSize ∨
        a.1.utf8ByteSize = b.1.utf8ByteSize ∧ a.1 ≤ b.1 := by
  unfold triedBefore
  simp [Ordering.isLE_iff_ne_gt, compare_le_iff_le]

theorem triedBefore_trans (a b c : String × String) (hab : triedBefore a b = true)
    (hbc : triedBefore b c = true) : triedBefore a c = true := by
  rw [triedBefore_iff] at hab hbc ⊢
  rcases hab with hab | ⟨hab, hle⟩
  · left
    omega
  · rcases hbc with hbc | ⟨hbc, hle'⟩
    · left
      omega
    · exact .inr ⟨hab.trans hbc, le_trans hle hle'⟩

theorem triedBefore_total (a b : String × String) :
    (triedBefore a b || triedBefore b a) = true := by
  rw [Bool.or_eq_true, triedBefore_iff, triedBefore_iff]
  rcases Nat.lt_trichotomy a.1.utf8ByteSize b.1.utf8ByteSize with hlt | heq | hlt
  · exact .inr (.inl hlt)
  · rcases le_total a.1 b.1 with hle | hle
    · exact .inl (.inr ⟨heq, hle⟩)
    · exact .inr (.inr ⟨heq.symm, hle⟩)
  · exact .inl (.inl hlt)

/-- The first entry of a key stays the first of it. -/
theorem find?_mergeSort (parents : List (String × String)) (key : String) :
    (parents.mergeSort triedBefore).find? (fun parent => parent.1 = key) =
      parents.find? fun parent => parent.1 = key := by
  have hequal : (parents.filter fun parent => parent.1 = key).Pairwise
      fun a b => triedBefore a b = true := by
    apply List.pairwise_of_forall_mem_list
    intro a ha b hb
    have hkey : a.1 = key := by simpa using (List.mem_filter.mp ha).2
    have hkey' : b.1 = key := by simpa using (List.mem_filter.mp hb).2
    exact triedBefore_iff.mpr (.inr ⟨by rw [hkey, hkey'], le_of_eq (hkey.trans hkey'.symm)⟩)
  have hsublist := (List.sublist_mergeSort triedBefore_trans triedBefore_total hequal
    List.filter_sublist).filter fun parent => parent.1 = key
  rw [List.filter_filter] at hsublist
  simp only [Bool.and_self] at hsublist
  have hlength := ((List.mergeSort_perm parents triedBefore).filter
    fun parent => parent.1 = key).length_eq
  rw [← List.head?_filter, ← List.head?_filter, hsublist.eq_of_length hlength.symm]

end RuleTable

/-! ### The parent of a path -/

/-- Whether `key` is the longest of the trimmed keys that a path is under, and `root` what stands,
    trimmed, under the first key that trims to it. -/
structure RuleConfig.IsTopParent (config : RuleConfig) (path key root : String) : Prop where
  under : IsUnder key path
  longest : ∀ raw ∈ config.topParents.keys, IsUnder (trimmed raw) path →
    (trimmed raw).length ≤ key.length
  first : ∃ raw found, IsLeast {k | k ∈ config.topParents.keys ∧ trimmed k = key} raw ∧
    config.topParents.get? raw = some found ∧ root = trimmed found

theorem RuleConfig.IsTopParent.unique {config : RuleConfig} {path key root key' root' : String}
    (h : config.IsTopParent path key root) (h' : config.IsTopParent path key' root') :
    key = key' ∧ root = root' := by
  obtain ⟨raw, found, hraw, hget, hroot⟩ := h.first
  obtain ⟨raw', found', hraw', hget', hroot'⟩ := h'.first
  have hle : key.length ≤ key'.length := by
    have hlongest := h'.longest raw hraw.1.1
    rw [hraw.1.2] at hlongest
    exact hlongest h.under
  have hge : key'.length ≤ key.length := by
    have hlongest := h.longest raw' hraw'.1.1
    rw [hraw'.1.2] at hlongest
    exact hlongest h'.under
  have hkey : key = key' := by
    rw [← String.length_toList, ← String.length_toList] at hle hge
    have hbegins := List.prefix_of_prefix_length_le h.under.isPrefix h'.under.isPrefix hle
    exact String.toList_inj.mp (hbegins.eq_of_length_le hge)
  subst hkey
  obtain rfl : raw = raw' := hraw.unique hraw'
  obtain rfl : found = found' := Option.some.inj (hget.symm.trans hget')
  exact ⟨rfl, hroot.trans hroot'.symm⟩

theorem RuleConfig.mem_keys_frozen {config : RuleConfig} {key : String} :
    (∃ parent ∈ config.frozen.topParents, parent.1 = key) ↔
      ∃ raw ∈ config.topParents.keys, trimmed raw = key := by
  unfold RuleConfig.frozen Mapping.keys
  simp only [List.mem_mergeSort]
  constructor
  · rintro ⟨_, hparent, rfl⟩
    obtain ⟨entry, hentry, rfl⟩ := List.mem_map.mp hparent
    exact ⟨entry.1, List.mem_map_of_mem hentry, rfl⟩
  · rintro ⟨_, hraw, rfl⟩
    obtain ⟨entry, hentry, rfl⟩ := List.mem_map.mp hraw
    exact ⟨trimmedEntry trimmed entry, List.mem_map_of_mem hentry, rfl⟩

theorem RuleConfig.isTopParent_of_topParent? {config : RuleConfig} {path : String}
    {parent : String × String} (h : config.frozen.topParent? path = some parent) :
    config.IsTopParent path parent.1 parent.2 := by
  obtain ⟨hunder, before, after, hparents, hbefore⟩ := List.find?_eq_some_iff_append.mp h
  rw [isUnder_eq_true_iff] at hunder
  have hsorted : config.frozen.topParents.Pairwise fun a b => RuleTable.triedBefore a b = true :=
    List.pairwise_mergeSort RuleTable.triedBefore_trans RuleTable.triedBefore_total _
  rw [hparents] at hsorted
  constructor
  case under => exact hunder
  case longest =>
    intro raw hraw hunder'
    obtain ⟨other, hother, hkey⟩ := RuleConfig.mem_keys_frozen.mpr ⟨raw, hraw, rfl⟩
    rw [← hkey] at hunder' ⊢
    rw [hparents] at hother
    rcases List.mem_append.mp hother with hother | hother
    · have hnot := hbefore other hother
      simp [isUnder_eq_true_iff.mpr hunder'] at hnot
    · rcases List.mem_cons.mp hother with rfl | hother
      · exact le_refl _
      · -- a later entry has no more bytes
        have htried :=
          (List.pairwise_cons.mp (List.pairwise_append.mp hsorted).2.1).1 other hother
        have hbytes : other.1.utf8ByteSize ≤ parent.1.utf8ByteSize := by
          rcases RuleTable.triedBefore_iff.mp htried with hlt | ⟨heq, -⟩
          · exact hlt.le
          · exact heq.ge
        exact length_le_of_utf8ByteSize_le hunder'.isPrefix hunder.isPrefix hbytes
  case first =>
    have hfind : config.frozen.topParents.find? (fun other => other.1 = parent.1) =
        some parent := by
      refine List.find?_eq_some_iff_append.mpr ⟨by simp, before, after, hparents, ?_⟩
      intro other hother
      have hnot := hbefore other hother
      have hne : other.1 ≠ parent.1 := by
        intro heq
        simp [heq, isUnder_eq_true_iff.mpr hunder] at hnot
      simpa using hne
    unfold RuleConfig.frozen at hfind
    rw [RuleTable.find?_mergeSort] at hfind
    exact Mapping.exists_isLeast_of_find? hfind

namespace RuleTable

theorem topParent?_eq_none_iff {config : RuleConfig} {path : String} :
    config.frozen.topParent? path = none ↔
      ∀ raw ∈ config.topParents.keys, ¬IsUnder (trimmed raw) path := by
  unfold topParent?
  rw [List.find?_eq_none]
  constructor
  · intro h raw hraw hunder
    obtain ⟨parent, hparent, hkey⟩ := RuleConfig.mem_keys_frozen.mpr ⟨raw, hraw, rfl⟩
    apply h parent hparent
    rw [hkey]
    exact isUnder_eq_true_iff.mpr hunder
  · intro h parent hparent hunder
    obtain ⟨raw, hraw, hkey⟩ := RuleConfig.mem_keys_frozen.mp ⟨parent, hparent, rfl⟩
    apply h raw hraw
    rw [hkey]
    exact isUnder_eq_true_iff.mp hunder

theorem topParent?_eq_some_iff {config : RuleConfig} {path key root : String} :
    config.frozen.topParent? path = some (key, root) ↔ config.IsTopParent path key root := by
  constructor
  · exact RuleConfig.isTopParent_of_topParent?
  · intro h
    cases hfound : config.frozen.topParent? path with
    | none =>
      obtain ⟨raw, -, ⟨⟨hraw, hkey⟩, -⟩, -⟩ := h.first
      apply absurd h.under
      rw [← hkey]
      exact topParent?_eq_none_iff.mp hfound raw hraw
    | some parent =>
      obtain ⟨rfl, rfl⟩ := h.unique (RuleConfig.isTopParent_of_topParent? hfound)
      rfl

/-! ### Expansion -/

theorem expand_of_topParent? {table : RuleTable} {path key root : String}
    (h : table.topParent? path = some (key, root)) :
    table.expand path =
      if IsUnder root path then path else root ++ segmentSeparator.toString ++ path := by
  unfold expand
  rw [h]
  simp only [isUnder_eq_true_iff]

/-- **The longest key that a path is under gives its root.**  Of the trimmed keys that a path is
    under a table finds the longest, with the root of the first key that trims to it, and nothing
    when there is none.  A path moves under its root unless it is there already, so that in the end
    it is there, and still leads to what it was. -/
theorem topParent?_longest {config : RuleConfig} {table : RuleTable}
    (htable : ofConfig config = .ok table) (path : String) :
    (∀ key root, table.topParent? path = some (key, root) ↔ config.IsTopParent path key root) ∧
      (table.topParent? path = none ↔
        ∀ raw ∈ config.topParents.keys, ¬IsUnder (trimmed raw) path) ∧
      (table.topParent? path = none → table.expand path = path) ∧
      ∀ key root, table.topParent? path = some (key, root) →
        (IsUnder root path → table.expand path = path) ∧
          (¬IsUnder root path →
            table.expand path = root ++ segmentSeparator.toString ++ path) ∧
          IsUnder root (table.expand path) ∧ LeadsTo (table.expand path) path := by
  obtain ⟨-, rfl⟩ := ofConfig_eq_ok_iff.mp htable
  refine ⟨fun _ _ => topParent?_eq_some_iff, topParent?_eq_none_iff, ?_, ?_⟩
  · intro hnone
    unfold expand
    rw [hnone]
  · intro key root hsome
    rw [expand_of_topParent? hsome]
    by_cases hunder : IsUnder root path
    · rw [if_pos hunder]
      exact ⟨fun _ => rfl, fun h => absurd hunder h, hunder, .inl rfl⟩
    · rw [if_neg hunder]
      exact ⟨fun h => absurd h hunder, fun _ => rfl, .inr ⟨path, rfl⟩, .inr ⟨root, rfl⟩⟩

/-- Keys one of which continues the other, and two that trim to one. -/
def nestedRules : RuleConfig where
  topParents := .ofList [("read", "mind"), ("read_book", "art"), (" read_book", " culture"),
    ("read_bookmark", "web")]

theorem topParent?_longest_nested :
    ∃ table, ofConfig nestedRules = .ok table ∧
      table.topParent? "read_book_novel" = some ("read_book", "culture") ∧
      table.expand "read_book_novel" = "culture_read_book_novel" ∧
      table.topParent? "reading" = none ∧ table.expand "reading" = "reading" := by
  have htable : ofConfig nestedRules = .ok nestedRules.frozen :=
    ofConfig_eq_ok_iff.mpr ⟨by decide, rfl⟩
  have hparent : nestedRules.IsTopParent "read_book_novel" "read_book" "culture" := by
    refine ⟨by decide, by decide, " read_book", " culture", ⟨by decide, ?_⟩, by decide, by decide⟩
    rintro key ⟨hkey, htrimmed⟩
    revert key
    decide
  obtain ⟨hsome, -, -, hexpand⟩ := topParent?_longest htable "read_book_novel"
  obtain ⟨-, hnone, hstays, -⟩ := topParent?_longest htable "reading"
  have hfound := (hsome _ _).mpr hparent
  have hlost := hnone.mpr (by decide)
  exact ⟨nestedRules.frozen, htable, hfound, (hexpand _ _ hfound).2.1 (by decide), hlost,
    hstays hlost⟩

end RuleTable

end Daybook
