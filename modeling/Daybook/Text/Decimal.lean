/-
  Daybook/Text/Decimal.lean
  =========================
  **Decimal numerals.**  Writing a natural number with a least width, and
  reading runs of the ASCII digits `0`–`9`.  No other digit of Unicode counts.
-/

namespace Daybook.Text

/-! ### Writing -/

/-- The decimal digits of a number, most significant first. -/
def digits (n : Nat) : List Char := Nat.toDigits 10 n

/-- The decimal digits, filled up with zeros in front to at least `width` characters. -/
def padded (width n : Nat) : List Char :=
  List.replicate (width - (digits n).length) '0' ++ digits n

/-- A number with its sign in front when negative, the sign counted in the least width. -/
def paddedInt (width : Nat) (n : Int) : List Char :=
  if n < 0 then '-' :: padded (width - 1) n.natAbs else padded width n.natAbs

/-! ### Reading -/

def digitsValue (ds : List Char) : Nat := Nat.ofDigitChars 10 ds 0

/-- Reads a text made of digits only, at least one. -/
def readDigits? (cs : List Char) : Option Nat :=
  if cs.isEmpty || !cs.all Char.isDigit then none else some (digitsValue cs)

/-- Reads the longest run of at most `most` digits at the front, at least one, and gives what
    follows it. -/
def takeNumber? (most : Nat) (cs : List Char) : Option (Nat × List Char) :=
  let run := (cs.take most).takeWhile Char.isDigit
  if run.isEmpty then none else some (digitsValue run, cs.drop run.length)

/-- Reads the longest run of digits at the front, at least one, and gives what follows it. -/
def takeLongNumber? (cs : List Char) : Option (Nat × List Char) :=
  takeNumber? cs.length cs

end Daybook.Text
