/-!
What programs do with files, whatever keeps the files.
-/

namespace Datamodel

/-- Why a file cannot be read as a text. -/
inductive ReadFault where
  | missing
  | isDirectory
  | notText
  | other (reason : String)
  deriving DecidableEq, Repr

namespace ReadFault

def message : ReadFault → String
  | missing => "No such file or directory (os error 2)"
  | isDirectory => "Is a directory (os error 21)"
  | notText => "stream did not contain valid UTF-8"
  | other reason => reason

end ReadFault

/-- The ways to use files in `m`. A path that does not start at the top is looked up in the working
directory. -/
class FileAccess (m : Type → Type) where
  /-- Path of the working directory. -/
  workingDirectory : m String
  /-- Whether a path leads to a file or directory. -/
  pathExists (path : String) : m Bool
  /-- Reads a file of text. -/
  readText (path : String) : m (Except ReadFault String)
  /-- Makes a directory and all those on the way to it that are missing; says whether the directory
  is there now. -/
  makeDirectories (path : String) : m Bool
  /-- Writes a file, in the place of an earlier one if there is one; says whether that went well. -/
  writeText (path text : String) : m Bool

end Datamodel
