/-
  Daybook/Json/Writer.lean
  ========================
  **Writing JSON.**  Two layouts: `compact` without any space, and `pretty` with
  one item a line and two spaces for each level, where empty arrays and objects
  stay `[]` and `{}`.  Characters outside ASCII are written as themselves, and a
  garbled value, which has no text of its own, as `null`.
-/
import Daybook.Json.Value

namespace Daybook.Json

/-! ### Strings -/

def hexDigit (n : Nat) : Char := Nat.digitChar (n % 16)

def escapeChar (c : Char) : List Char :=
  match c with
  | '"' => ['\\', '"']
  | '\\' => ['\\', '\\']
  | '\x08' => ['\\', 'b']
  | '\x0c' => ['\\', 'f']
  | '\n' => ['\\', 'n']
  | '\r' => ['\\', 'r']
  | '\t' => ['\\', 't']
  | c =>
    if c.toNat < 0x20 then ['\\', 'u', '0', '0', hexDigit (c.toNat / 16), hexDigit c.toNat]
    else [c]

def quote (s : String) : String :=
  "\"" ++ String.ofList (s.toList.flatMap escapeChar) ++ "\""

/-! ### Compact layout -/

mutual

def compact : Json → String
  | .null => "null"
  | .boolean true => "true"
  | .boolean false => "false"
  | .integer n => toString n
  | .decimal literal => literal
  | .string text => quote text
  | .array items => "[" ++ ",".intercalate (compactItems items) ++ "]"
  | .object fields => "\x7b" ++ ",".intercalate (compactFields fields) ++ "\x7d"
  | .garbled => "null"

def compactItems : List Json → List String
  | [] => []
  | item :: rest => compact item :: compactItems rest

def compactFields : List (String × Json) → List String
  | [] => []
  | (name, value) :: rest => (quote name ++ ":" ++ compact value) :: compactFields rest

end

/-! ### Pretty layout -/

/-- The spaces in front of a line at a level. -/
def indentation (level : Nat) : String := String.ofList (List.replicate (2 * level) ' ')

/-- Items between brackets, one a line at the next level; brackets alone for no items. -/
def enclose (opening closing : String) (level : Nat) : List String → String
  | [] => opening ++ closing
  | items =>
    let separator := ",\n" ++ indentation (level + 1)
    opening ++ "\n" ++ indentation (level + 1) ++ separator.intercalate items ++
      "\n" ++ indentation level ++ closing

mutual

/-- The value with one item a line, its first line standing at `level`. -/
def prettyAt (level : Nat) : Json → String
  | .array items => enclose "[" "]" level (prettyItems (level + 1) items)
  | .object fields => enclose "\x7b" "\x7d" level (prettyFields (level + 1) fields)
  | .null => "null"
  | .boolean true => "true"
  | .boolean false => "false"
  | .integer n => toString n
  | .decimal literal => literal
  | .string text => quote text
  | .garbled => "null"

/-- The items, each standing at `level`. -/
def prettyItems (level : Nat) : List Json → List String
  | [] => []
  | item :: rest => prettyAt level item :: prettyItems level rest

/-- The fields, each standing at `level`. -/
def prettyFields (level : Nat) : List (String × Json) → List String
  | [] => []
  | (name, value) :: rest =>
    (quote name ++ ": " ++ prettyAt level value) :: prettyFields level rest

end

/-- The value with one item a line. -/
def pretty (value : Json) : String := prettyAt 0 value

end Daybook.Json
