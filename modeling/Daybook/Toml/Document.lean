/-
  Daybook/Toml/Document.lean
  ==========================
  **TOML documents.**  The statements of a document build one table.  Nothing may
  be said twice: a key has one value, a table is opened by one header, and a table
  that keys with dots have built, or that is a value, is not opened at all.  A
  header may pass through the last table of an array.
-/
import Daybook.Toml.Reader

namespace Daybook.Toml

/-! ### Headers -/

/-- Changes the table at the end of the path of a header; tables that are missing on the way are
    made. -/
def changeAt? (change : Entries → Option Entries) : List String → Entries → Option Entries
  | [], entries => change entries
  | name :: rest, entries =>
    match node? name entries with
    | none =>
      (changeAt? change rest []).map fun inner => setNode name (.table .passed inner) entries
    | some (.table origin inner) =>
      (changeAt? change rest inner).map fun inner => setNode name (.table origin inner) entries
    | some (.tables (last :: before)) =>
      (changeAt? change rest last).map fun last => setNode name (.tables (last :: before)) entries
    | some _ => none

/-- Does something with the last name of a path in the table that the names before it lead to. -/
def changeLast? (change : String → Entries → Option Entries) (path : List String)
    (entries : Entries) : Option Entries :=
  match path.getLast? with
  | none => none
  | some name => changeAt? (change name) path.dropLast entries

def openTable? (name : String) (entries : Entries) : Option Entries :=
  match node? name entries with
  | none => some (setNode name (.table .opened []) entries)
  | some (.table .passed inner) => some (setNode name (.table .opened inner) entries)
  | some _ => none

/-- Adds a table to the array of a name. -/
def addTable? (name : String) (entries : Entries) : Option Entries :=
  match node? name entries with
  | none => some (setNode name (.tables [[]]) entries)
  | some (.tables items) => some (setNode name (.tables ([] :: items)) entries)
  | some _ => none

/-! ### Statements -/

/-- A document so far: its entries, and the path of the open table. -/
structure Draft where
  entries : Entries := []
  current : List String := []

def Draft.add? (d : Draft) : Statement → Option Draft
  | .table path =>
    (changeLast? openTable? path d.entries).map fun entries => { entries, current := path }
  | .element path =>
    (changeLast? addTable? path d.entries).map fun entries => { entries, current := path }
  | .entry path value =>
    (changeAt? (insertAt? value path) d.current d.entries).map fun entries => { d with entries }

def read? (text : String) : Option Json := do
  let statements ← readStatements? text
  let draft ← statements.foldlM Draft.add? {}
  return .object (entriesToJson draft.entries)

end Daybook.Toml
