/-
  Daybook/Toml/Table.lean
  =======================
  **TOML tables under construction.**  A table is built entry by entry, and no
  entry is ever replaced.  A key with dots, `a.b.c = 1`, makes the tables on its
  way, and its value goes into the last of them only if a key with dots made that
  one, now or before.
-/
import Daybook.Json.Value

namespace Daybook.Toml

/-! ### What a table holds -/

/-- How a table came to be. -/
inductive Origin where
  /-- On the way of a longer header. -/
  | passed
  /-- By its own header. -/
  | opened
  /-- On the way of a key with dots. -/
  | dotted
deriving DecidableEq, Repr

/-- What stands under a name. -/
inductive Node where
  | value (value : Json)
  | table (origin : Origin) (entries : List (String × Node))
  /-- The tables of an array, the latest first. -/
  | tables (items : List (List (String × Node)))

abbrev Entries := List (String × Node)

/-- Gives a name a node, at its old place if it has one. -/
def setNode (name : String) (node : Node) : Entries → Entries
  | [] => [(name, node)]
  | (n, old) :: rest => if n = name then (n, node) :: rest else (n, old) :: setNode name node rest

def node? (name : String) (entries : Entries) : Option Node :=
  (entries.find? fun entry => entry.1 == name).map (·.2)

/-! ### Keys -/

/-- Gives the key at a path a value.  Tables that are missing on the way are made.  One that is
    there must not have been opened by a header, and the last one must be the work of a key with
    dots. -/
def insertAt? (value : Json) : List String → Entries → Option Entries
  | [], _ => none
  | [name], entries =>
    match node? name entries with
    | none => some (setNode name (.value value) entries)
    | some _ => none
  | name :: rest, entries =>
    match node? name entries with
    | none =>
      (insertAt? value rest []).map fun inner => setNode name (.table .dotted inner) entries
    | some (.table origin inner) =>
      if origin == .opened || (origin == .passed && rest.length == 1) then none
      else
        (insertAt? value rest inner).map fun inner => setNode name (.table origin inner) entries
    | some (.tables (last :: before)) =>
      if rest.length == 1 then none
      else
        (insertAt? value rest last).map fun last => setNode name (.tables (last :: before)) entries
    | some _ => none

/-! ### The finished table -/

mutual

def Node.toJson : Node → Json
  | .value value => value
  | .table _ entries => .object (entriesToJson entries)
  | .tables items => .array (itemsToJson items)

def entriesToJson : List (String × Node) → List (String × Json)
  | [] => []
  | (name, node) :: rest => (name, node.toJson) :: entriesToJson rest

/-- The tables of an array, the first one first. -/
def itemsToJson : List (List (String × Node)) → List Json
  | [] => []
  | entries :: rest => itemsToJson rest ++ [.object (entriesToJson entries)]

end

end Daybook.Toml
