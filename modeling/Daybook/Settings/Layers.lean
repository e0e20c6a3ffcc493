/-
  Daybook/Settings/Layers.lean
  ============================
  **Where settings come from.**  Four layers, each over the one before: the usual
  values, the file of the user, the file named on the command line, and the
  environment.  Tables are merged key by key; anything else is replaced.  A file
  that is not there is an empty layer.
-/
import Daybook.Files.Error
import Daybook.Settings.Basic
import Daybook.Settings.Variable
import Daybook.Toml.Document

namespace Daybook

inductive SettingsError where
  /-- A file is there but cannot be read as text. -/
  | unreadable (path : String)
  | notToml (path : String)
  /-- A setting has a value of the wrong kind. -/
  | unfit
deriving DecidableEq, Repr

namespace Settings

/-! ### Files -/

/-- A folder and the folders around it, from the inside out. -/
def foldersAround : List String → List (List String)
  | [] => [[]]
  | name :: outer => (name :: outer) :: foldersAround outer

/-- Where a settings file is looked for: a relative path in the working folder and then in those
    around it. -/
def candidates (workingFolder path : String) : List String :=
  if Path.isAbsolute path then [path]
  else
    let names := ((Path.names workingFolder).filter Path.isStep).reverse
    (foldersAround names).map fun folder =>
      Path.join ("/" ++ "/".intercalate folder.reverse) path

/-- Whether an attempt to read shows that no file is there. -/
def isMissing : FileError → Bool
  | .notFound | .notFolder | .isFolder | .nameTooLong | .notPath => true
  | .notText | .other _ => false

/-- The layer of the first of these files that is there; an empty one if none is. -/
def fileLayer (read : String → Except FileError ByteArray) :
    List String → Except SettingsError Json
  | [] => .ok (.object [])
  | path :: rest =>
    match read path with
    | .error cause => if isMissing cause then fileLayer read rest else .error (.unreadable path)
    | .ok bytes =>
      match String.fromUTF8? bytes with
      | none => .error (.unreadable path)
      | some text =>
        match Toml.read? text with
        | none => .error (.notToml path)
        | some layer => .ok layer

/-! ### All layers -/

def files (environment : Environment) (workingFolder : String) (path : Option String) :
    List (List String) :=
  (userSettingsPath? environment).toList.map (candidates workingFolder) ++
    path.toList.map (candidates workingFolder)

/-- The settings of a user who works in a folder, with a file that the command line may name. -/
def load (read : String → Except FileError ByteArray) (environment : Environment)
    (workingFolder : String) (path : Option String) : Except SettingsError Settings := do
  let usual : Settings := { reportPath := usualReportPath environment }
  let layers ← (files environment workingFolder path).mapM (fileLayer read)
  let merged := (layers ++ [Variable.layer environment.entries]).foldl Json.overlay usual.toJson
  match ofJson? usual merged with
  | some settings => return settings
  | none => throw .unfit

end Settings

end Daybook
