/-
  Daybook/Toml/Reader.lean
  ========================
  **Reading TOML.**  A document is a list of statements: a header that opens a
  table, a header that adds a table to an array, or a key with its value.  What is
  read is the part of TOML that settings need: comments, bare and quoted keys,
  keys with dots, strings on one line, integers, booleans, arrays and inline
  tables.  Fractions, dates and strings over several lines are refused, and so is
  what is nested too deep.  A byte order mark may open the document.
-/
import Daybook.Json.Reader
import Daybook.Text.Parts
import Daybook.Toml.Table

namespace Daybook.Toml

open Daybook.Text

inductive Statement where
  /-- Opens the table at a path. -/
  | table (path : List String)
  /-- Adds a table to the array at a path, and opens it. -/
  | element (path : List String)
  /-- Gives the key at a path below the open table a value. -/
  | entry (path : List String) (value : Json)
deriving Repr

/-- The depth that nothing reaches: keys have fewer parts, and fewer arrays and inline tables stand
    one inside the other. -/
def depthLimit : Nat := 80

/-! ### Blanks and comments -/

/-- The two characters that may stand between the parts of a line. -/
def isGap (c : Char) : Bool := c == ' ' || c == '\t'

def skipGap (cs : List Char) : List Char := cs.dropWhile isGap

/-- Whether a character may stand in a comment or a string as it is. -/
def isPlain (c : Char) : Bool := c == '\t' || (0x20 ≤ c.toNat && c.toNat != 0x7F)

/-- Drops a comment at the front, up to the end of its line. -/
def skipComment : List Char → List Char
  | '#' :: rest => rest.dropWhile isPlain
  | cs => cs

/-- Drops the end of a line at the front. -/
def takeLineEnd? : List Char → Option (List Char)
  | '\n' :: rest => some rest
  | '\r' :: '\n' :: rest => some rest
  | _ => none

/-- Drops what may stand between a statement and the next line: a gap, a comment and the end of
    the line, or of the document. -/
def endStatement? (cs : List Char) : Option (List Char) :=
  match skipComment (skipGap cs) with
  | [] => some []
  | rest => takeLineEnd? rest

/-- Drops gaps, comments and ends of lines; `fuel` bounds their number. -/
def skipFiller : Nat → List Char → List Char
  | 0, cs => cs
  | fuel + 1, cs =>
    let rest := skipComment (skipGap cs)
    match takeLineEnd? rest with
    | some after => skipFiller fuel after
    | none => rest

/-! ### Strings -/

/-- Reads as many hexadecimal digits as a character escape has. -/
def takeScalar? (width : Nat) (cs : List Char) : Option (Char × List Char) := do
  let values ← (cs.take width).mapM Json.hexValue?
  let value := values.foldl (fun total digit => total * 16 + digit) 0
  if values.length = width ∧ Nat.isValidChar value then
    some (Char.ofNat value, cs.drop width)
  else none

/-- Reads one character of a basic string, escaped or not. -/
def takeBasicChar? : List Char → Option (Char × List Char)
  | '\\' :: 'u' :: rest => takeScalar? 4 rest
  | '\\' :: 'U' :: rest => takeScalar? 8 rest
  | '\\' :: '/' :: _ => none
  | '\\' :: c :: rest => (Json.escapedChar? c).map fun c => (c, rest)
  | c :: rest => if isPlain c ∧ c ≠ '\\' then some (c, rest) else none
  | [] => none

/-- Reads the rest of a basic string after the characters `before` (latest first); `fuel` bounds
    the number of characters. -/
def takeBasicAfter? : Nat → List Char → List Char → Option (String × List Char)
  | 0, _, _ => none
  | fuel + 1, before, cs =>
    match cs with
    | '"' :: rest => some (String.ofList before.reverse, rest)
    | cs =>
      match takeBasicChar? cs with
      | some (c, rest) => takeBasicAfter? fuel (c :: before) rest
      | none => none

/-- Reads a basic string after its opening quotation mark. -/
def takeBasic? (cs : List Char) : Option (String × List Char) :=
  takeBasicAfter? (cs.length + 1) [] cs

/-- Reads a literal string after its opening apostrophe: no character is escaped. -/
def takeLiteral? (cs : List Char) : Option (String × List Char) :=
  let isInside := fun c => isPlain c && c != '\''
  match cs.dropWhile isInside with
  | '\'' :: rest => some (String.ofList (cs.takeWhile isInside), rest)
  | _ => none

/-! ### Keys -/

/-- Whether a character may stand in a key without quotation marks. -/
def isBareKeyChar (c : Char) : Bool := c.isAlphanum || c == '-' || c == '_'

def takeKeyPart? (cs : List Char) : Option (String × List Char) :=
  match cs with
  | '"' :: rest => takeBasic? rest
  | '\'' :: rest => takeLiteral? rest
  | cs =>
    let run := cs.takeWhile isBareKeyChar
    if run.isEmpty then none else some (String.ofList run, cs.drop run.length)

/-- Reads a key, parts with dots between them, after the parts `before` (latest first); `fuel`
    bounds the number of parts. -/
def takeKeyAfter? : Nat → List String → List Char → Option (List String × List Char)
  | 0, _, _ => none
  | fuel + 1, before, cs =>
    match takeKeyPart? (skipGap cs) with
    | none => none
    | some (part, rest) =>
      match skipGap rest with
      | '.' :: rest => takeKeyAfter? fuel (part :: before) rest
      | rest => some ((part :: before).reverse, rest)

def takeKey? (cs : List Char) : Option (List String × List Char) := do
  let (path, rest) ← takeKeyAfter? (cs.length + 1) [] cs
  if path.length < depthLimit then some (path, rest) else none

/-! ### Integers -/

def digitValue? (base : Nat) (c : Char) : Option Nat :=
  (Json.hexValue? c).bind fun value => if value < base then some value else none

/-- Reads digits of a base, where single underscores may stand between them. -/
def readUnderscored? (base : Nat) (cs : List Char) : Option Nat := do
  let groups := splitAt '_' cs
  if groups.any List.isEmpty then none
  else
    let values ← groups.flatten.mapM (digitValue? base)
    return values.foldl (fun total digit => total * base + digit) 0

/-- Reads a whole number without leading zeros. -/
def readDecimal? (cs : List Char) : Option Nat :=
  match cs with
  | '0' :: _ :: _ => none
  | _ => readUnderscored? 10 cs

/-- Reads an integer that fills the text, within 64 bits. -/
def readInteger? (cs : List Char) : Option Int := do
  let value : Int ← match cs with
    | '0' :: 'x' :: digits => (readUnderscored? 16 digits).map Int.ofNat
    | '0' :: 'o' :: digits => (readUnderscored? 8 digits).map Int.ofNat
    | '0' :: 'b' :: digits => (readUnderscored? 2 digits).map Int.ofNat
    | '+' :: digits => (readDecimal? digits).map Int.ofNat
    | '-' :: digits => (readDecimal? digits).map fun n => -(n : Int)
    | digits => (readDecimal? digits).map Int.ofNat
  if -9223372036854775808 ≤ value ∧ value ≤ 9223372036854775807 then some value else none

/-! ### Values -/

/-- Reads a word: an integer or a boolean. -/
def takeWord? (cs : List Char) : Option (Json × List Char) :=
  let isWordChar := fun c => isBareKeyChar c || c == '+' || c == '.' || c == ':'
  let word := cs.takeWhile isWordChar
  let rest := cs.dropWhile isWordChar
  if word = "true".toList then some (.boolean true, rest)
  else if word = "false".toList then some (.boolean false, rest)
  else (readInteger? word).map fun n => (.integer n, rest)

mutual

/-- Reads a value that may hold arrays and inline tables `depth` deep; `fuel` bounds the number of
    steps. -/
def takeValue? (depth : Nat) : Nat → List Char → Option (Json × List Char)
  | 0, _ => none
  | fuel + 1, cs =>
    match cs, depth with
    | '"' :: rest, _ => (takeBasic? rest).map fun (text, rest) => (.string text, rest)
    | '\'' :: rest, _ => (takeLiteral? rest).map fun (text, rest) => (.string text, rest)
    | '[' :: rest, inner + 1 => takeItems? inner fuel [] (skipFiller rest.length rest)
    | '{' :: rest, inner + 1 =>
      match skipGap rest with
      | '}' :: rest => some (.object [], rest)
      | rest => takeInline? inner fuel [] rest
    | rest, _ => takeWord? rest

/-- Reads the rest of an array after the items `before` (latest first). -/
def takeItems? (depth : Nat) : Nat → List Json → List Char → Option (Json × List Char)
  | 0, _, _ => none
  | fuel + 1, before, cs =>
    match cs with
    | ']' :: rest => some (.array before.reverse, rest)
    | cs =>
      match takeValue? depth fuel cs with
      | none => none
      | some (item, rest) =>
        match skipFiller rest.length rest with
        | ',' :: rest => takeItems? depth fuel (item :: before) (skipFiller rest.length rest)
        | ']' :: rest => some (.array (item :: before).reverse, rest)
        | _ => none

/-- Reads the rest of an inline table after the entries `before`. -/
def takeInline? (depth : Nat) : Nat → Entries → List Char → Option (Json × List Char)
  | 0, _, _ => none
  | fuel + 1, before, cs =>
    match takeKey? cs with
    | some (path, '=' :: rest) =>
      match takeValue? depth fuel (skipGap rest) with
      | none => none
      | some (value, rest) =>
        match insertAt? value path before with
        | none => none
        | some entries =>
          match skipGap rest with
          | ',' :: rest => takeInline? depth fuel entries rest
          | '}' :: rest => some (.object (entriesToJson entries), rest)
          | _ => none
    | _ => none

end

/-! ### Statements -/

def takeStatement? (cs : List Char) : Option (Statement × List Char) :=
  match cs with
  | '[' :: '[' :: rest =>
    match takeKey? rest with
    | some (path, ']' :: ']' :: rest) => some (.element path, rest)
    | _ => none
  | '[' :: rest =>
    match takeKey? rest with
    | some (path, ']' :: rest) => some (.table path, rest)
    | _ => none
  | cs =>
    match takeKey? cs with
    | some (path, '=' :: rest) =>
      (takeValue? (depthLimit - 1) (2 * rest.length + 2) (skipGap rest)).map
        fun (value, rest) => (.entry path value, rest)
    | _ => none

/-- Reads statements up to the end of the document; `fuel` bounds their number. -/
def takeStatements? : Nat → List Char → Option (List Statement)
  | 0, _ => none
  | fuel + 1, cs =>
    match skipFiller cs.length cs with
    | [] => some []
    | rest =>
      match takeStatement? rest with
      | none => none
      | some (statement, rest) =>
        match endStatement? rest with
        | none => none
        | some rest => (takeStatements? fuel rest).map fun statements => statement :: statements

/-- Drops a byte order mark at the front. -/
def skipMark : List Char → List Char
  | '\uFEFF' :: rest => rest
  | cs => cs

def readStatements? (text : String) : Option (List Statement) :=
  let cs := skipMark text.toList
  takeStatements? (cs.length + 1) cs

end Daybook.Toml
