import Redact.File.Path

/-! # File trees

The files and folders that a command works on. A place is the list of the names from the root of the
tree down to a file or folder. Walking along a path goes from folder to folder, so a path leads
nowhere if it goes through a file or through something that is not there, even if it comes back. -/

namespace Redact

abbrev Place := List String

inductive Content where
  | file (bytes : List UInt8)
  | folder
  deriving DecidableEq, Repr

inductive Obstacle where
  | missing
  | notFolder
  | isFolder
  | nameTooLong
  deriving DecidableEq, Repr

def Obstacle.account : Obstacle → String
  | missing => "[Errno 2] No such file or directory"
  | notFolder => "[Errno 20] Not a directory"
  | isFolder => "[Errno 21] Is a directory"
  | nameTooLong => "[Errno 36] File name too long"

/-- Files with their bytes, folders, and the folder that relative paths start in. Whatever lies above
a file or folder is a folder too. -/
structure FileTree where
  here : Place := []
  files : List (Place × List UInt8) := []
  folders : List Place := []
  deriving Repr

namespace FileTree

def content? (t : FileTree) (p : Place) : Option Content :=
  match t.files.lookup p with
  | some bytes => some (.file bytes)
  | none =>
    if p.isPrefixOf t.here || t.folders.any p.isPrefixOf || t.files.any (p.isPrefixOf ·.1) then
      some .folder
    else none

def maxNameBytes : Nat := 255

def enter (t : FileTree) (p : Place) (name : String) : Except Obstacle Place :=
  match t.content? p with
  | none => .error .missing
  | some (.file _) => .error .notFolder
  | some .folder =>
    if name == "" || name == "." then .ok p
    else if name == ".." then .ok p.dropLast
    else if maxNameBytes < name.utf8ByteSize then .error .nameTooLong
    else .ok (p ++ [name])

/-- Where names lead to; at the last place there may be nothing. -/
def walk (t : FileTree) (start : Place) (names : List String) : Except Obstacle Place :=
  names.foldlM t.enter start

def startOf (t : FileTree) (p : Path) : Place := if p.root.isEmpty then t.here else []

def locate (t : FileTree) (p : Path) : Except Obstacle Place :=
  t.walk (t.startOf p) p.names

/-- Where a path leads to for a file to be written, whether there is one or not. -/
def locateFile (t : FileTree) (p : Path) : Except Obstacle Place := do
  let place ← t.locate p
  if t.content? place = some .folder then throw .isFolder
  return place

def find (t : FileTree) (p : Path) : Except Obstacle Content := do
  match t.content? (← t.locate p) with
  | some c => .ok c
  | none => .error .missing

/-- What a written path leads to: one that is empty leads nowhere, one that ends in a slash to a
folder only. -/
def findText (t : FileTree) (s : String) : Except Obstacle Content := do
  if s.isEmpty then throw .missing
  let start := if s.startsWith "/" then [] else t.here
  match t.content? (← t.walk start (Path.slashParts s)) with
  | some c => .ok c
  | none => .error .missing

/-- The place that a path names: two points take a name back, whatever is there. -/
def resolve (t : FileTree) (p : Path) : Place :=
  p.names.foldl (fun place name => if name == ".." then place.dropLast else place ++ [name]) (t.startOf p)

def write (t : FileTree) (p : Place) (bytes : List UInt8) : FileTree :=
  { t with files := (p, bytes) :: t.files.filter (·.1 != p) }

end FileTree

end Redact
