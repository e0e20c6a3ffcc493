/-
  Daybook/Text/Parts.lean
  =======================
  **Parts of a text.**  A character is blank when Unicode gives it the property
  `White_Space`; the table below lists the 25 of them as ranges.  `trim` removes the
  blanks at both ends of a text and nothing else.  `cutAt?` gives the part before
  the first occurrence of a separator and the part after it; `splitAt` cuts at every
  occurrence of one character.
-/

namespace Daybook.Text

/-! ### The blank characters -/

/-- The code point ranges of Unicode's `White_Space` property, ends included. -/
def blankRanges : List (Nat × Nat) :=
  [(0x0009, 0x000D), (0x0020, 0x0020), (0x0085, 0x0085), (0x00A0, 0x00A0), (0x1680, 0x1680),
   (0x2000, 0x200A), (0x2028, 0x2029), (0x202F, 0x202F), (0x205F, 0x205F), (0x3000, 0x3000)]

def isBlank (c : Char) : Bool :=
  blankRanges.any fun range => range.1 ≤ c.toNat && c.toNat ≤ range.2

/-- The property has 25 members. -/
example : (blankRanges.map fun range => range.2 - range.1 + 1).sum = 25 := by decide

/-! ### Trimming -/

def trimStart (cs : List Char) : List Char := cs.dropWhile isBlank

def trimEnd (cs : List Char) : List Char := (cs.reverse.dropWhile isBlank).reverse

def trim (cs : List Char) : List Char := trimEnd (trimStart cs)

/-- A text without the blanks at its ends. -/
def trimmed (s : String) : String := String.ofList (trim s.toList)

/-- Whether every character is blank, so that trimming leaves nothing. -/
def isBlankText (cs : List Char) : Bool := cs.all isBlank

/-! ### Cutting -/

/-- The text before and the text after the first occurrence of `sep`, if it occurs. -/
def cutAt? (sep : List Char) : List Char → Option (List Char × List Char)
  | [] => if sep.isEmpty then some ([], []) else none
  | c :: cs =>
    match sep.isPrefixOf? (c :: cs) with
    | some after => some ([], after)
    | none => (cutAt? sep cs).map fun parts => (c :: parts.1, parts.2)

/-- The parts of a text between the occurrences of a character, empty parts included. -/
def splitAt (sep : Char) (cs : List Char) : List (List Char) :=
  cs.foldr
    (fun c parts =>
      if c = sep then [] :: parts
      else match parts with
        | [] => [[c]]
        | part :: rest => (c :: part) :: rest)
    [[]]

end Daybook.Text
