import Datamodel.Entries
import Datamodel.Files.Access
import Datamodel.Files.Path

/-!
A tree of files and directories that is all there is, with one of the directories as the working
directory. A path is followed name by name, and every name but the last has to be that of a
directory.
-/

namespace Datamodel

/-- A place in a tree: the names on the way from the top. -/
abbrev Location :=
  List String

inductive TreeEntry where
  | file (content : ByteArray)
  | directory

/-- Files and directories by their places. The directories on the way to the working directory are
not listed. -/
structure FileTree where
  workingDirectory : Location := []
  entries : List (Location × TreeEntry) := []

namespace FileTree

def get? (t : FileTree) (l : Location) : Option TreeEntry :=
  if l.isPrefixOf t.workingDirectory then some .directory else t.entries.lookup l

def isDirectory (t : FileTree) (l : Location) : Bool :=
  match t.get? l with
  | some .directory => true
  | _ => false

def put (t : FileTree) (l : Location) (e : TreeEntry) : FileTree :=
  { t with entries := Entries.put l e t.entries }

theorem get?_put_of_ne (t : FileTree) {l asked : Location} (h : asked ≠ l) (e : TreeEntry) :
    (t.put l e).get? asked = t.get? asked := by
  simp [get?, put, Entries.lookup_put_of_ne h]

def nameLimit : Nat :=
  255

def pathLimit : Nat :=
  4095

/-- Whether a name is short enough. -/
def isName (name : String) : Bool :=
  name.utf8ByteSize ≤ nameLimit

/-- Whether a text is a path at all: not empty, not too long, and without the character that ends a
path. -/
def isPath (path : String) : Bool :=
  path ≠ "" && path.utf8ByteSize ≤ pathLimit && !path.toList.contains '\x00'

/-- Whether a name stays in the directory. -/
def isIdle (name : String) : Bool :=
  name = "" || name = "."

/-- Where a name leads from a directory. -/
def next (l : Location) (name : String) : Location :=
  if isIdle name then l else if name = ".." then l.dropLast else l ++ [name]

/-- Where names lead from a place, if all places on the way are directories. -/
def walk (t : FileTree) (l : Location) : List String → Option Location
  | [] => some l
  | name :: names =>
    if t.isDirectory l && isName name then t.walk (next l name) names else none

/-- Where a path starts. -/
def start (t : FileTree) (path : String) : Location :=
  if Path.isAbsolute path then [] else t.workingDirectory

/-- The place that a path leads to, whether there is something or not. -/
def locate? (t : FileTree) (path : String) : Option Location :=
  if isPath path then t.walk (t.start path) (Path.names path) else none

/-- What a path leads to. -/
def lookup? (t : FileTree) (path : String) : Option TreeEntry :=
  (t.locate? path).bind t.get?

def pathExists (t : FileTree) (path : String) : Bool :=
  (t.lookup? path).isSome

def readText (t : FileTree) (path : String) : Except ReadFault String :=
  match t.lookup? path with
  | none => .error .missing
  | some .directory => .error .isDirectory
  | some (.file content) =>
    match String.fromUTF8? content with
    | some text => .ok text
    | none => .error .notText

/-- Makes the directories that names lead to from a place, one after the other, until one cannot be
made. -/
def makeAlong (t : FileTree) (l : Location) : List String → Bool × FileTree
  | [] => (true, t)
  | name :: names =>
    if !(t.isDirectory l && isName name) then (false, t)
    else
      match t.get? (next l name) with
      | some .directory => t.makeAlong (next l name) names
      | some (.file _) => (false, t)
      | none => (t.put (next l name) .directory).makeAlong (next l name) names

/-- Makes a directory and those on the way to it. The last name of a path that goes on with points
only has to be there already. -/
def makeDirectories (t : FileTree) (path : String) : Bool × FileTree :=
  if path = "" then (true, t)
  else if !isPath path then (false, t)
  else
    let reversed := (Path.names path).reverse
    match reversed.dropWhile isIdle with
    | [] => (true, t)
    | last :: before =>
      if (reversed.takeWhile isIdle).contains "." && last != ".." then
        let (made, after) := t.makeAlong (t.start path) before.reverse
        (made && (after.lookup? path).isSome, after)
      else t.makeAlong (t.start path) (last :: before).reverse

/-- Writes a file into a directory that is there. -/
def writeBytes (t : FileTree) (path : String) (content : ByteArray) : Bool × FileTree :=
  match (Path.names path).getLast?, t.locate? path with
  | some name, some l =>
    if isIdle name || name = ".." || t.isDirectory l then (false, t)
    else (true, t.put l (.file content))
  | _, _ => (false, t)

def writeText (t : FileTree) (path text : String) : Bool × FileTree :=
  t.writeBytes path text.toUTF8

instance : FileAccess (StateM FileTree) where
  workingDirectory := do
    let t ← get
    return "/" ++ String.intercalate "/" t.workingDirectory
  pathExists path := return (← get).pathExists path
  readText path := return (← get).readText path
  makeDirectories path := modifyGet (·.makeDirectories path)
  writeText path text := modifyGet (·.writeText path text)

end FileTree

end Datamodel
