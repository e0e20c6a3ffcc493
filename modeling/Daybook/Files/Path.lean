/-
  Daybook/Files/Path.lean
  =======================
  **Paths.**  A path is a text of names with `/` between them; one that starts
  with `/` leads from the root, any other one from the folder in which the program
  works.  Paths stay texts, because messages show them as they were given.
-/
import Daybook.Text.Parts

namespace Daybook.Path

open Daybook.Text

/-- Whether a path leads from the root. -/
def isAbsolute (path : String) : Bool := path.toList.head? == some '/'

/-- The names of a path in order; an empty name stands where nothing is between two `/`. -/
def names (path : String) : List String := (splitAt '/' path.toList).map String.ofList

/-- A path below a folder; an absolute one replaces the folder. -/
def join (folder path : String) : String :=
  if isAbsolute path then path
  else if folder.isEmpty || folder.toList.getLast? == some '/' then folder ++ path
  else folder ++ "/" ++ path

/-- Whether a name leads somewhere else than to the folder before it. -/
def isStep (name : String) : Bool := !(name == "" || name == ".")

/-- The most bytes of a name. -/
def longestName : Nat := 255

/-- The most bytes of a path. -/
def longestPath : Nat := 4095

/-- The path of the folder that holds what a path names; none for the root and for nothing. -/
def parent? (path : String) : Option String :=
  match (names path).reverse.dropWhile fun name => !isStep name with
  | [] => none
  | _ :: before =>
    let folder := "/".intercalate ((before.dropWhile fun name => !isStep name).reverse)
    some (if isAbsolute path && !isAbsolute folder then "/" ++ folder else folder)

end Daybook.Path
