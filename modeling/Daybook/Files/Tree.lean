/-
  Daybook/Files/Tree.lean
  =======================
  **A tree of files.**  Folders and files by the names that lead to them from the
  root, and the folder in which the program works.  A path is walked name by name:
  every name but the last must lead to a folder, `.` stays, and `..` goes back.
-/
import Daybook.Files.Error
import Daybook.Files.Path

namespace Daybook

inductive FileNode where
  | folder
  | file (content : ByteArray)

structure FileTree where
  /-- What is there, by the names that lead there from the root. -/
  nodes : List (List String × FileNode) := []
  /-- The folder in which the program works. -/
  working : List String := []

namespace FileTree

/-! ### Looking -/

/-- What stands at a place; the root is a folder. -/
def node? (t : FileTree) (place : List String) : Option FileNode :=
  if place.isEmpty then some .folder else t.nodes.lookup place

/-- The place, if a folder stands there. -/
def folder? (t : FileTree) (place : List String) : Except FileError (List String) :=
  match t.node? place with
  | none => .error .notFound
  | some (.file _) => .error .notFolder
  | some .folder => .ok place

/-- The content of the file at a place. -/
def fileAt? (t : FileTree) (place : List String) : Option ByteArray :=
  match t.node? place with
  | some (.file content) => some content
  | some .folder | none => none

def step (folder : List String) (name : String) : Except FileError (List String) :=
  if name = ".." then .ok folder.dropLast
  else if !Path.isStep name then .ok folder
  else if name.utf8ByteSize ≤ Path.longestName then .ok (folder ++ [name])
  else .error .nameTooLong

/-- Walks from a place along names; nothing need stand where the last one leads. -/
def walk (t : FileTree) : List String → List String → Except FileError (List String)
  | place, [] => .ok place
  | place, name :: rest =>
    match (t.folder? place).bind fun folder => step folder name with
    | .error cause => .error cause
    | .ok next => t.walk next rest

def start (t : FileTree) (path : String) : Except FileError (List String) :=
  if path.toList.contains '\x00' then .error .notPath
  else if path.utf8ByteSize > Path.longestPath then .error .nameTooLong
  else if path.isEmpty then .error .notFound
  else if Path.isAbsolute path then .ok []
  else .ok t.working

/-- The place that a path leads to; nothing need stand there yet. -/
def locate (t : FileTree) (path : String) : Except FileError (List String) :=
  (t.start path).bind fun place => t.walk place (Path.names path)

def read (t : FileTree) (path : String) : Except FileError ByteArray :=
  match t.locate path with
  | .error cause => .error cause
  | .ok place =>
    match t.node? place with
    | none => .error .notFound
    | some .folder => .error .isFolder
    | some (.file content) => .ok content

/-! ### Changing -/

def put (t : FileTree) (place : List String) (node : FileNode) : FileTree :=
  { t with nodes := (place, node) :: t.nodes.filter fun entry => entry.1 != place }

/-- Walks from a place along names and makes the folders that are missing, as far as it gets. -/
def makeFolders (t : FileTree) : List String → List String → FileTree
  | _, [] => t
  | place, name :: rest =>
    match step place name with
    | .error _ => t
    | .ok next =>
      match t.node? next with
      | none => (t.put next .folder).makeFolders next rest
      | some .folder => t.makeFolders next rest
      | some (.file _) => t

def createFolders (t : FileTree) (path : String) : FileTree :=
  match t.start path with
  | .error _ => t
  | .ok place => t.makeFolders place (Path.names path)

/-- The place at which a file of this path would stand.  All names but the last must lead to
    folders that are there.  A path that ends with `/`, `.` or `..` is that of a folder, whether
    the folder is there or not. -/
def locateFile (t : FileTree) (path : String) : Except FileError (List String) := do
  let place ← t.start path
  match (Path.names path).reverse.dropWhile fun name => name == "" with
  | [] => throw .isFolder
  | last :: before =>
    let folder ← t.folder? (← t.walk place before.reverse)
    if last == "." || last == ".." || path.toList.getLast? == some '/' then throw .isFolder
    else step folder last

/-- The place of a file to be written to at its end; the file need not be there yet. -/
def placeToAppend (t : FileTree) (path : String) : Except FileError (List String) :=
  match t.locateFile path with
  | .error cause => .error cause
  | .ok place =>
    match t.node? place with
    | some .folder => .error .isFolder
    | some (.file _) | none => .ok place

/-- Adds bytes at the end of the file at a place, which is made if it is not there. -/
def appendAt (t : FileTree) (place : List String) (bytes : ByteArray) : FileTree :=
  t.put place (.file ((t.fileAt? place).getD .empty ++ bytes))

/-- Adds a text at the end of a file, which is made if it is not there. -/
def append (t : FileTree) (path text : String) : Except FileError FileTree :=
  (t.placeToAppend path).map fun place => t.appendAt place text.toUTF8

/-- Adds a text at the end of a file after making the folders above it; what cannot be done is left
    undone. -/
def extend (t : FileTree) (path text : String) : FileTree :=
  let t := match Path.parent? path with
    | some folder => if folder.isEmpty then t else t.createFolders folder
    | none => t
  match t.append path text with
  | .ok t => t
  | .error _ => t

/-! ### Building -/

/-- The tree with these files below the working folder, and the folders that they need. -/
def ofFiles (working : List String) (files : List (String × ByteArray)) : FileTree :=
  let bare := ({ working } : FileTree).makeFolders [] working
  files.foldl
    (fun t (path, content) =>
      let t := match Path.parent? path with
        | some folder => t.createFolders folder
        | none => t
      match t.locate path with
      | .ok place => t.put place (.file content)
      | .error _ => t)
    bare

end FileTree

end Daybook
