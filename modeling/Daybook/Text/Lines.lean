/-
  Daybook/Text/Lines.lean
  =======================
  **Lines of a file.**  A line ends with a line feed, and a carriage return right
  before it belongs to the ending; what stands after the last line feed is a line
  of its own unless it is empty.  Each line is decoded for itself, so the lines
  before one that is no UTF-8 can still be read.
-/

namespace Daybook.Text

/-! ### Cutting bytes into lines -/

def lineFeed : UInt8 := 10

def carriageReturn : UInt8 := 13

/-- A line without the carriage return of its ending. -/
def dropReturn (line : List UInt8) : List UInt8 :=
  if line.getLast? = some carriageReturn then line.dropLast else line

/-- The lines of a file, without their endings. -/
def byteLines : List UInt8 → List UInt8 → List (List UInt8)
  | [], [] => []
  | current, [] => [current.reverse]
  | current, byte :: rest =>
    if byte = lineFeed then dropReturn current.reverse :: byteLines [] rest
    else byteLines (byte :: current) rest

/-! ### Decoding -/

def decode? (bytes : List UInt8) : Option String := String.fromUTF8? ⟨bytes.toArray⟩

structure ReadLines where
  /-- The lines before the first one that is no text. -/
  lines : List String
  /-- Whether there are no other lines. -/
  complete : Bool
deriving DecidableEq, Repr

/-- Decodes lines up to the first one that is no text. -/
def decodeLines : List (List UInt8) → ReadLines
  | [] => { lines := [], complete := true }
  | line :: rest =>
    match decode? line with
    | none => { lines := [], complete := false }
    | some text =>
      let others := decodeLines rest
      { others with lines := text :: others.lines }

def readLines (bytes : ByteArray) : ReadLines := decodeLines (byteLines [] bytes.data.toList)

end Daybook.Text
