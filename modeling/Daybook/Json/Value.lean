/-
  Daybook/Json/Value.lean
  =======================
  **JSON values.**  Objects keep their fields in the order in which they stand,
  repeated names included, and whole numbers are kept apart from numbers written
  with a fraction or an exponent: what a field accepts depends on both.  A text
  may also hold a string that is no text, and a field that nobody reads may have it.
-/

namespace Daybook

inductive Json where
  | null
  | boolean (value : Bool)
  | integer (value : Int)
  /-- A number with a fraction or an exponent (or `-0`), as it was written. -/
  | decimal (literal : String)
  | string (text : String)
  | array (items : List Json)
  | object (fields : List (String × Json))
  /-- A string with half of a surrogate pair, or an object that has such a string for a name: it
      is well formed and can be passed over, but no value can be read from it. -/
  | garbled
deriving Repr, Inhabited

namespace Json

def natural (n : Nat) : Json := .integer n

/-- `null` for nothing, else the encoded value. -/
def nullable {α : Type} (encode : α → Json) : Option α → Json
  | none => .null
  | some value => encode value

/-- The field, or no field at all for nothing. -/
def fieldIfSome {α : Type} (name : String) (encode : α → Json) : Option α → List (String × Json)
  | none => []
  | some value => [(name, encode value)]

/-! ### Merging settings -/

/-- Gives the field `name` the value `value`, at its old place if it has one. -/
def setField (name : String) (value : Json) : List (String × Json) → List (String × Json)
  | [] => [(name, value)]
  | (n, v) :: rest => if n = name then (n, value) :: rest else (n, v) :: setField name value rest

mutual

/-- Lays the second value over the first: objects are merged field by field, and anything else
    replaces what was there. -/
def overlay (base : Json) : Json → Json
  | .object fields =>
    match base with
    | .object baseFields => .object (overlayFields baseFields fields)
    | _ => .object fields
  | other => other

/-- Lays fields over the fields of an object. -/
def overlayFields (base : List (String × Json)) : List (String × Json) → List (String × Json)
  | [] => base
  | (name, value) :: rest =>
    let merged :=
      match base.lookup name with
      | some old => overlay old value
      | none => value
    overlayFields (setField name merged base) rest

end

end Json

end Daybook
