/-
  Daybook/Settings/Literal.lean
  =============================
  **Values in the text of a variable.**  A text that is as a whole a boolean, a
  number, a string between quotation marks, a character between apostrophes, a
  list or a table has that value.  Any other text stands for itself, without the
  blanks around it where it has none of the characters that lists and tables are
  made of.  The items of a list and the fields of a table are such texts too.
-/
import Daybook.Text.Parts
import Daybook.Toml.Reader

namespace Daybook.Literal

open Daybook.Text

/-! ### Characters -/

/-- The blank characters that may stand around a value. -/
def isGap (c : Char) : Bool := c == '\x0c' || Json.isSpace c

def skipGap (cs : List Char) : List Char := cs.dropWhile isGap

/-- Whether a character ends a text without quotation marks. -/
def isSeparator (c : Char) : Bool := c == ',' || c == '[' || c == ']' || c == '{' || c == '}'

/-! ### Texts without quotation marks -/

/-- Reads a whole number with an optional sign, within 64 bits. -/
def readInteger? (cs : List Char) : Option Int := do
  let value : Int ← match cs with
    | '-' :: digits => (readDigits? digits).map fun n => -(n : Int)
    | '+' :: digits => (readDigits? digits).map Int.ofNat
    | digits => (readDigits? digits).map Int.ofNat
  if -9223372036854775808 ≤ value ∧ value ≤ 18446744073709551615 then some value else none

/-- Whether a text is a number with a point: digits before it or after it, and perhaps an
    exponent. -/
def isFraction (cs : List Char) : Bool :=
  let unsigned := match cs with
    | '-' :: rest => rest
    | '+' :: rest => rest
    | rest => rest
  let (whole, rest) := Json.spanDigits unsigned
  match rest with
  | '.' :: rest =>
    let (part, rest) := Json.spanDigits rest
    !(whole.isEmpty && part.isEmpty) &&
      match Json.takeExponent? rest with
      | some (_, []) => true
      | _ => false
  | _ => false

/-- The value of a text without quotation marks. -/
def ofBare (cs : List Char) : Json :=
  let text := trim cs
  if isFraction text then .decimal (String.ofList text)
  else
    match readInteger? text with
    | some n => .integer n
    | none => .string (String.ofList text)

/-! ### Values -/

/-- Reads the name of a field, with the gaps around it. -/
def takeName? (cs : List Char) : Option (String × List Char) :=
  let named := match skipGap cs with
    | '"' :: rest => Toml.takeBasic? rest
    | cs =>
      let run := cs.takeWhile Toml.isBareKeyChar
      if run.isEmpty then none else some (String.ofList run, cs.drop run.length)
  named.map fun (name, rest) => (name, skipGap rest)

mutual

/-- Reads a value with the gaps around it; `fuel` bounds the number of steps. -/
def takeValue? : Nat → List Char → Option (Json × List Char)
  | 0, _ => none
  | fuel + 1, cs =>
    match skipGap cs with
    | 't' :: 'r' :: 'u' :: 'e' :: rest => some (.boolean true, skipGap rest)
    | 'f' :: 'a' :: 'l' :: 's' :: 'e' :: rest => some (.boolean false, skipGap rest)
    | '"' :: rest => (Toml.takeBasic? rest).map fun (text, rest) => (.string text, skipGap rest)
    | '\'' :: c :: '\'' :: rest => some (.string (String.ofList [c]), skipGap rest)
    | '\'' :: _ => none
    | '[' :: rest => takeItems? fuel [] rest
    | '{' :: rest => takeFields? fuel [] rest
    | cs =>
      some (ofBare (cs.takeWhile fun c => !isSeparator c), cs.dropWhile fun c => !isSeparator c)

/-- Reads the rest of a list after the items `before` (latest first); a comma may stand before the
    closing bracket. -/
def takeItems? : Nat → List Json → List Char → Option (Json × List Char)
  | 0, _, _ => none
  | fuel + 1, before, cs =>
    match cs with
    | ']' :: rest => some (.array before.reverse, skipGap rest)
    | cs =>
      match takeValue? fuel cs with
      | some (item, ',' :: rest) => takeItems? fuel (item :: before) rest
      | some (item, ']' :: rest) => some (.array (item :: before).reverse, skipGap rest)
      | _ => none

/-- Reads the rest of a table after the fields `before`; of several for one name the last wins. -/
def takeFields? : Nat → List (String × Json) → List Char → Option (Json × List Char)
  | 0, _, _ => none
  | fuel + 1, before, cs =>
    match cs with
    | '}' :: rest => some (.object before, skipGap rest)
    | cs =>
      match takeName? cs with
      | some (name, '=' :: rest) =>
        match takeValue? fuel rest with
        | some (value, ',' :: rest) => takeFields? fuel (Json.setField name value before) rest
        | some (value, '}' :: rest) =>
          some (.object (Json.setField name value before), skipGap rest)
        | _ => none
      | _ => none

end

def read (s : String) : Json :=
  let cs := s.toList
  match takeValue? (2 * cs.length + 2) cs with
  | some (value, []) => value
  | _ => .string s

end Daybook.Literal
