/-
  Daybook/Settings/Variable.lean
  ==============================
  **Settings in environment variables.**  A variable named `TL_…` gives one
  setting.  The rest of its name, in lower case, is the way to the setting, with
  `__` where it goes one level down: `TL_CONVERT__SCOPE` is `scope` in `convert`.
  A name with an empty level stands for nothing.
-/
import Daybook.Settings.Literal
import Daybook.Text.Parts

namespace Daybook.Variable

open Daybook.Text

/-! ### Names -/

/-- The opening of the names that count, in any case. -/
def opening : List Char := ['t', 'l', '_']

/-- Cuts a name into levels; `fuel` bounds their number. -/
def levels : Nat → List Char → List (List Char)
  | 0, cs => [cs]
  | fuel + 1, cs =>
    match cutAt? ['_', '_'] cs with
    | none => [cs]
    | some (level, rest) => level :: levels fuel rest

/-- The way to the setting that a name stands for, if it stands for one.  Blanks around the name
    and behind its opening do not count. -/
def settingPath? (name : String) : Option (List String) :=
  match opening.isPrefixOf? ((trim name.toList).map Char.toLower) with
  | none => none
  | some rest =>
    let rest := trim rest
    let parts := (levels rest.length rest).flatMap (splitAt '.')
    if parts.any List.isEmpty then none else some (parts.map String.ofList)

/-! ### Layers -/

/-- A value at the end of a path of fields. -/
def nest (value : Json) : List String → Json
  | [] => value
  | name :: rest => .object [(name, nest value rest)]

/-- The settings that variables give, those of later variables over those of earlier ones. -/
def layer (environment : List (String × String)) : Json :=
  environment.foldl
    (fun settings (name, text) =>
      match settingPath? name with
      | none => settings
      | some path => settings.overlay (nest (Literal.read text) path))
    (.object [])

end Daybook.Variable
