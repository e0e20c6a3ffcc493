/-
  Daybook/Files/Error.lean
  ========================
  **Why a file could not be used.**
-/

namespace Daybook

inductive FileError where
  | notFound
  /-- A file stands where the path needs a folder. -/
  | notFolder
  /-- A folder stands where a file is needed. -/
  | isFolder
  /-- A name, or the path as a whole, is longer than the system takes. -/
  | nameTooLong
  /-- The path holds a null character, so that nothing can stand there. -/
  | notPath
  /-- The content is no UTF-8. -/
  | notText
  /-- Any other cause, in the words of the system. -/
  | other (cause : String)
deriving DecidableEq, Repr

def FileError.message : FileError → String
  | notFound => "No such file or directory (os error 2)"
  | notFolder => "Not a directory (os error 20)"
  | isFolder => "Is a directory (os error 21)"
  | nameTooLong => "File name too long (os error 36)"
  | notPath => "file name contained an unexpected NUL byte"
  | notText => "stream did not contain valid UTF-8"
  | other cause => cause

end Daybook
