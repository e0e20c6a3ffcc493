/-
  Daybook/Json/Reader.lean
  ========================
  **Reading JSON.**  The strict grammar: no comments, no trailing commas, no
  control characters inside strings, and nothing but white space around the one
  value of a text.  Half of a surrogate pair is well formed inside a string, but
  garbles it.
-/
import Daybook.Json.Value
import Daybook.Text.Decimal

namespace Daybook.Json

open Daybook.Text

/-- The four white space characters of JSON. -/
def isSpace (c : Char) : Bool := c == ' ' || c == '\n' || c == '\t' || c == '\r'

def skipSpace (cs : List Char) : List Char := cs.dropWhile isSpace

/-! ### Strings -/

def hexValue? (c : Char) : Option Nat :=
  if c.isDigit then some (c.toNat - '0'.toNat)
  else if 'a' ≤ c ∧ c ≤ 'f' then some (c.toNat - 'a'.toNat + 10)
  else if 'A' ≤ c ∧ c ≤ 'F' then some (c.toNat - 'A'.toNat + 10)
  else none

def takeHex? : List Char → Option (Nat × List Char)
  | a :: b :: c :: d :: rest => do
    let a ← hexValue? a
    let b ← hexValue? b
    let c ← hexValue? c
    let d ← hexValue? d
    return (((a * 16 + b) * 16 + c) * 16 + d, rest)
  | _ => none

/-- Reads a `\u` escape of the second half of a surrogate pair. -/
def takeLowHalf? : List Char → Option (Nat × List Char)
  | '\\' :: 'u' :: rest => do
    let (unit, rest) ← takeHex? rest
    if 0xDC00 ≤ unit ∧ unit ≤ 0xDFFF then some (unit, rest) else none
  | _ => none

/-- Reads the digits of a `\u` escape, two escapes together where they are a surrogate pair; half
    of a pair alone stands for no character. -/
def takeCodePoint? (cs : List Char) : Option (Option Char × List Char) := do
  let (unit, rest) ← takeHex? cs
  if 0xD800 ≤ unit ∧ unit ≤ 0xDBFF then
    match takeLowHalf? rest with
    | some (low, rest) =>
      some (some (Char.ofNat (0x10000 + (unit - 0xD800) * 0x400 + (low - 0xDC00))), rest)
    | none => some (none, rest)
  else if 0xDC00 ≤ unit ∧ unit ≤ 0xDFFF then some (none, rest)
  else some (some (Char.ofNat unit), rest)

/-- The character that a one-letter escape stands for. -/
def escapedChar? : Char → Option Char
  | '"' => some '"'
  | '\\' => some '\\'
  | '/' => some '/'
  | 'b' => some '\x08'
  | 'f' => some '\x0c'
  | 'n' => some '\n'
  | 'r' => some '\r'
  | 't' => some '\t'
  | _ => none

/-- Reads one character of a string, escaped or not. -/
def takeChar? : List Char → Option (Option Char × List Char)
  | [] => none
  | '\\' :: 'u' :: rest => takeCodePoint? rest
  | '\\' :: c :: rest => (escapedChar? c).map fun c => (some c, rest)
  | c :: rest => if c = '\\' ∨ c.toNat < 0x20 then none else some (some c, rest)

/-- Reads the rest of a string up to its closing quotation mark, after the characters `before`
    (latest first); `fuel` bounds the number of characters. -/
def takeStringAfter? :
    Nat → List (Option Char) → List Char → Option (Option String × List Char)
  | 0, _, _ => none
  | fuel + 1, before, cs =>
    match cs with
    | '"' :: rest => some ((before.reverse.mapM id).map String.ofList, rest)
    | cs =>
      match takeChar? cs with
      | some (c, rest) => takeStringAfter? fuel (c :: before) rest
      | none => none

/-- Reads a string after its opening quotation mark; a string with half of a surrogate pair in it
    is well formed but has no text. -/
def takeString? (cs : List Char) : Option (Option String × List Char) :=
  takeStringAfter? (cs.length + 1) [] cs

/-! ### Numbers -/

def spanDigits (cs : List Char) : List Char × List Char :=
  (cs.takeWhile Char.isDigit, cs.dropWhile Char.isDigit)

def takeFraction? : List Char → Option (List Char × List Char)
  | '.' :: rest =>
    let (run, after) := spanDigits rest
    if run.isEmpty then none else some ('.' :: run, after)
  | cs => some ([], cs)

def takeExponent? : List Char → Option (List Char × List Char)
  | c :: rest =>
    if c = 'e' ∨ c = 'E' then
      let (sign, rest) :=
        match rest with
        | '+' :: after => (['+'], after)
        | '-' :: after => (['-'], after)
        | after => ([], after)
      let (run, after) := spanDigits rest
      if run.isEmpty then none else some (c :: sign ++ run, after)
    else some ([], c :: rest)
  | [] => some ([], [])

/-- Reads a number.  Without fraction and exponent it is a whole number, except `-0`. -/
def takeNumber? (cs : List Char) : Option (Json × List Char) := do
  let (sign, rest) := match cs with
    | '-' :: after => (['-'], after)
    | after => ([], after)
  let (whole, rest) := match rest with
    | '0' :: after => (['0'], after)
    | after => spanDigits after
  if whole.isEmpty then none
  else
    let (fraction, rest) ← takeFraction? rest
    let (exponent, rest) ← takeExponent? rest
    if fraction.isEmpty ∧ exponent.isEmpty ∧ (sign ++ whole) ≠ ['-', '0'] then
      let size : Int := digitsValue whole
      some (.integer (if sign.isEmpty then size else -size), rest)
    else
      some (.decimal (String.ofList (sign ++ whole ++ fraction ++ exponent)), rest)

/-! ### Values -/

def ofText : Option String → Json
  | some text => .string text
  | none => .garbled

/-- The value of an object with these names and values. -/
def ofNamed (fields : List (Option String × Json)) : Json :=
  match fields.mapM fun (name, value) => name.map fun name => (name, value) with
  | some fields => .object fields
  | none => .garbled

mutual

/-- Reads a value; `fuel` bounds the number of steps. -/
def takeValue? : Nat → List Char → Option (Json × List Char)
  | 0, _ => none
  | fuel + 1, cs =>
    match skipSpace cs with
    | '"' :: rest => (takeString? rest).map fun (text, rest) => (ofText text, rest)
    | '[' :: rest =>
      match skipSpace rest with
      | ']' :: rest => some (.array [], rest)
      | rest => takeItems? fuel [] rest
    | '{' :: rest =>
      match skipSpace rest with
      | '}' :: rest => some (.object [], rest)
      | rest => takeFields? fuel [] rest
    | 'n' :: 'u' :: 'l' :: 'l' :: rest => some (.null, rest)
    | 't' :: 'r' :: 'u' :: 'e' :: rest => some (.boolean true, rest)
    | 'f' :: 'a' :: 'l' :: 's' :: 'e' :: rest => some (.boolean false, rest)
    | rest => takeNumber? rest

/-- Reads the items of an array from one item on, after the items `before` (latest first). -/
def takeItems? : Nat → List Json → List Char → Option (Json × List Char)
  | 0, _, _ => none
  | fuel + 1, before, cs =>
    match takeValue? fuel cs with
    | none => none
    | some (item, rest) =>
      match skipSpace rest with
      | ',' :: rest => takeItems? fuel (item :: before) rest
      | ']' :: rest => some (.array (item :: before).reverse, rest)
      | _ => none

/-- Reads the fields of an object from one field on, after the fields `before` (latest first). -/
def takeFields? : Nat → List (Option String × Json) → List Char → Option (Json × List Char)
  | 0, _, _ => none
  | fuel + 1, before, cs =>
    match skipSpace cs with
    | '"' :: rest =>
      match takeString? rest with
      | none => none
      | some (name, rest) =>
        match skipSpace rest with
        | ':' :: rest =>
          match takeValue? fuel rest with
          | none => none
          | some (value, rest) =>
            match skipSpace rest with
            | ',' :: rest => takeFields? fuel ((name, value) :: before) rest
            | '}' :: rest => some (ofNamed ((name, value) :: before).reverse, rest)
            | _ => none
        | _ => none
    | _ => none

end

def read? (text : String) : Option Json := do
  let cs := text.toList
  let (value, rest) ← takeValue? (2 * cs.length + 2) cs
  if (skipSpace rest).isEmpty then some value else none

end Daybook.Json
