/-!
Paths of files: names with a slash between them.
-/

namespace Datamodel.Path

/-- The names of a path in their order. A slash at the end, or two in a row, make empty names. -/
def names (path : String) : List String :=
  (path.toList.splitOn '/').map String.ofList

def join (directory file : String) : String :=
  if directory = "" ∨ directory.toList.getLast? = some '/' then directory ++ file
  else directory ++ "/" ++ file

def isAbsolute (path : String) : Bool :=
  path.toList.head? = some '/'

/-- What a name has after its last point, unless that is its only point and comes first. -/
def extension? (name : String) : Option String :=
  let reversed := name.toList.reverse
  let ending := reversed.takeWhile (· ≠ '.')
  match reversed.dropWhile (· ≠ '.') with
  | '.' :: _ :: _ => some (String.ofList ending.reverse)
  | _ => none

/-- The name of the file that a path leads to. Empty names and points at the end do not count. -/
def fileName? (path : String) : Option String :=
  match ((names path).reverse.dropWhile fun name => name = "" ∨ name = ".") with
  | name :: _ => if name = ".." then none else some name
  | [] => none

/-- Whether a path leads to a file with an extension, in letters of either case. -/
def hasExtension (path extension : String) : Bool :=
  match (fileName? path).bind extension? with
  | some e => e.toList.map Char.toLower == extension.toList
  | none => false

end Datamodel.Path
