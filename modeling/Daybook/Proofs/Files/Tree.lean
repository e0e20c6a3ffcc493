/-
  Daybook/Proofs/Files/Tree.lean
  ==============================
  **Writing to files leaves the paths alone.**  Where a path leads depends on the
  folders of a tree (`SameFolders`).  What is added at the end of a file makes no
  folder and removes none (`sameFolders_appendAt`), so every path still leads where
  it led, and only the file itself has changed (`fileAt?_appendAt`).
-/
import Daybook.Files.Tree
import Daybook.Proofs.Text.Cut

namespace Daybook.FileTree

open Daybook.Text

/-! ### What comes of an attempt -/

theorem toOption_eq_some_iff {ε α : Type} {x : Except ε α} {a : α} :
    x.toOption = some a ↔ x = .ok a := by
  cases x <;> simp [Except.toOption]

theorem toOption_bind {ε α β : Type} (x : Except ε α) (f : α → Except ε β) :
    (x.bind f).toOption = x.toOption.bind fun a => (f a).toOption := by
  cases x <;> rfl

variable {t t' t'' : FileTree} {place : List String}

/-! ### Places -/

theorem lookup_filter_ne {α : Type} {other : List String} (h : other ≠ place)
    (nodes : List (List String × α)) :
    (nodes.filter fun entry => entry.1 != place).lookup other = nodes.lookup other := by
  induction nodes with
  | nil => rfl
  | cons entry rest ih =>
    by_cases hentry : entry.1 = place
    · have hother : (other == entry.1) = false := by simp [hentry, h]
      rw [List.filter_cons_of_neg (by simp [hentry]), ih, List.lookup_cons, hother]
    · rw [List.filter_cons_of_pos (by simp [hentry]), List.lookup_cons, List.lookup_cons, ih]

theorem node?_put (h : place ≠ []) (node : FileNode) (other : List String) :
    (t.put place node).node? other = if other = place then some node else t.node? other := by
  unfold node? put
  by_cases hother : other = place
  · subst hother
    simp [h]
  · rw [List.lookup_cons, beq_eq_false_iff_ne.mpr hother, lookup_filter_ne hother, if_neg hother]

/-- The root is a folder. -/
theorem ne_nil_of_not_folder (h : t.node? place ≠ some .folder) : place ≠ [] := by
  rintro rfl
  exact h rfl

/-- **What is added at the end of a file** changes this file and no other. -/
theorem fileAt?_appendAt (h : t.node? place ≠ some .folder) (bytes : ByteArray)
    (other : List String) :
    (t.appendAt place bytes).fileAt? other =
      if other = place then some ((t.fileAt? place).getD .empty ++ bytes) else t.fileAt? other := by
  unfold appendAt
  rw [fileAt?, node?_put (ne_nil_of_not_folder h)]
  by_cases hother : other = place
  · rw [if_pos hother, if_pos hother]
  · rw [if_neg hother, if_neg hother]
    rfl

/-! ### Folders -/

/-- Whether one tree has the folders of another one. -/
structure SameFolders (t t' : FileTree) : Prop where
  working : t'.working = t.working
  folders : ∀ place, t'.node? place = some .folder ↔ t.node? place = some .folder

theorem SameFolders.refl (t : FileTree) : t.SameFolders t := ⟨rfl, fun _ => Iff.rfl⟩

theorem SameFolders.trans (h : t.SameFolders t') (h' : t'.SameFolders t'') : t.SameFolders t'' :=
  ⟨h'.working.trans h.working, fun place => (h'.folders place).trans (h.folders place)⟩

theorem sameFolders_appendAt (h : t.node? place ≠ some .folder) (bytes : ByteArray) :
    t.SameFolders (t.appendAt place bytes) where
  working := rfl
  folders := by
    intro other
    rw [appendAt, node?_put (ne_nil_of_not_folder h)]
    split
    next hother => simp [hother, h]
    next => rfl

/-! ### Where paths lead -/

theorem folder?_eq_ok_iff {found : List String} :
    t.folder? place = .ok found ↔ t.node? place = some .folder ∧ place = found := by
  unfold folder?
  split
  next hnone => simp [hnone]
  next hfile => simp [hfile]
  next hfolder => simp [hfolder]

theorem walk_cons (t : FileTree) (place : List String) (name : String) (rest : List String) :
    t.walk place (name :: rest) =
      ((t.folder? place).bind fun folder => step folder name).bind fun next =>
        t.walk next rest := by
  rw [walk]
  cases (t.folder? place).bind fun folder => step folder name <;> rfl

theorem walk_append (t : FileTree) (place : List String) (names more : List String) :
    t.walk place (names ++ more) = (t.walk place names).bind fun next => t.walk next more := by
  induction names generalizing place with
  | nil => rfl
  | cons name rest ih =>
    rw [List.cons_append, walk_cons, walk_cons]
    cases (t.folder? place).bind fun folder => step folder name with
    | error cause => rfl
    | ok next => exact ih next

namespace SameFolders

variable (h : t.SameFolders t')
include h

theorem folder? (place : List String) :
    (t'.folder? place).toOption = (t.folder? place).toOption := by
  ext found
  rw [toOption_eq_some_iff, toOption_eq_some_iff, folder?_eq_ok_iff, folder?_eq_ok_iff, h.folders]

theorem start (path : String) : t'.start path = t.start path := by
  unfold FileTree.start
  rw [h.working]

theorem walk (place : List String) (names : List String) :
    (t'.walk place names).toOption = (t.walk place names).toOption := by
  induction names generalizing place with
  | nil => rfl
  | cons name rest ih =>
    simp only [walk_cons, toOption_bind, h.folder?, ih]

theorem locate (path : String) : (t'.locate path).toOption = (t.locate path).toOption := by
  unfold FileTree.locate
  simp only [toOption_bind, h.start, h.walk]

theorem locateFile (path : String) :
    (t'.locateFile path).toOption = (t.locateFile path).toOption := by
  unfold FileTree.locateFile
  simp only [bind, toOption_bind, h.start]
  congr 1
  funext place
  split
  next => rfl
  next => simp only [toOption_bind, h.walk, h.folder?]

end SameFolders

/-- The names of a path that ends with a name. -/
theorem exists_names {path : String} {c : Char} (h : path.toList.getLast? = some c) (hc : c ≠ '/') :
    ∃ before last, Path.names path = before ++ [last] ∧ last ≠ "" := by
  obtain ⟨part, hpart, hne⟩ := exists_getLast?_splitAt h hc
  obtain ⟨before, hsplit⟩ := List.getLast?_eq_some_iff.mp hpart
  refine ⟨before.map String.ofList, String.ofList part, ?_, ?_⟩
  · rw [Path.names, hsplit, List.map_append, List.map_singleton]
  · simpa using hne

/-- The path of a file leads to the file. -/
theorem locate_of_locateFile {path : String} (h : t.locateFile path = .ok place) :
    t.locate path = .ok place := by
  unfold locateFile at h
  rw [← toOption_eq_some_iff] at h
  simp only [bind, toOption_bind, Option.bind_eq_some_iff, toOption_eq_some_iff] at h
  obtain ⟨root, hroot, h⟩ := h
  split at h
  next => cases h
  next last above hlast =>
    rw [← toOption_eq_some_iff] at h
    simp only [toOption_bind, Option.bind_eq_some_iff, toOption_eq_some_iff] at h
    obtain ⟨folder, habove, found, hfound, h⟩ := h
    split at h
    next => cases h
    next hname =>
      have hnonempty : path.toList ≠ [] := by
        intro hempty
        rw [start, String.toList_eq_nil_iff.mp hempty] at hroot
        cases hroot
      have hend : path.toList.getLast hnonempty ≠ '/' := by
        intro hslash
        simp [List.getLast?_eq_some_getLast hnonempty, hslash] at hname
      obtain ⟨before, name, hnames, hne⟩ :=
        exists_names (List.getLast?_eq_some_getLast hnonempty) hend
      -- no empty name has to be passed over behind the last one
      rw [hnames, List.reverse_concat, List.dropWhile_cons_of_neg (by simpa using hne)] at hlast
      obtain ⟨rfl, rfl⟩ := List.cons.inj hlast
      rw [List.reverse_reverse] at habove
      simp only [locate, hroot, hnames, walk_append, habove, hfound, h, Except.bind, walk]

theorem placeToAppend_eq_ok_iff {path : String} :
    t.placeToAppend path = .ok place ↔
      t.locateFile path = .ok place ∧ t.node? place ≠ some .folder := by
  unfold placeToAppend
  cases t.locateFile path with
  | error cause => simp
  | ok found =>
    dsimp only
    split
    next hfolder =>
      simp only [reduceCtorEq, false_iff, not_and, not_not]
      rintro ⟨⟩
      exact hfolder
    next content hfile =>
      refine ⟨?_, And.left⟩
      rintro ⟨⟩
      exact ⟨rfl, by simp [hfile]⟩
    next hnone =>
      refine ⟨?_, And.left⟩
      rintro ⟨⟩
      exact ⟨rfl, by simp [hnone]⟩

/-- Where a file can be written to at its end does not change either. -/
theorem SameFolders.placeToAppend (h : t.SameFolders t') {path : String} :
    t'.placeToAppend path = .ok place ↔ t.placeToAppend path = .ok place := by
  rw [placeToAppend_eq_ok_iff, placeToAppend_eq_ok_iff, ← toOption_eq_some_iff, h.locateFile,
    toOption_eq_some_iff, Ne, h.folders]

/-! ### What a path has -/

/-- The content of the file that a path leads to, if there is one. -/
theorem toOption_read (t : FileTree) (path : String) :
    (t.read path).toOption = (t.locate path).toOption.bind t.fileAt? := by
  unfold read
  cases t.locate path with
  | error cause => rfl
  | ok place =>
    change _ = t.fileAt? place
    unfold fileAt?
    dsimp only
    split
    next hnone => simp [hnone, Except.toOption]
    next hfolder => simp [hfolder, Except.toOption]
    next content hfile => simp [hfile, Except.toOption]

end Daybook.FileTree
