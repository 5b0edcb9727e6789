/-!
What may stand around keys and values in a TOML text: space within a line, comments, and line
breaks, which are a line feed or a carriage return with a line feed after it.
-/

namespace Datamodel.Toml

/-- The characters that are space within a line. -/
def isSpace (c : Char) : Bool :=
  c == ' ' || c == '\t'

def skipSpace (cs : List Char) : List Char :=
  cs.dropWhile isSpace

/-- The characters that may stand in a comment: all but the control characters, of which only the
tab is allowed. Outside of ASCII there is no restriction. -/
def isPrintable (c : Char) : Bool :=
  c == '\t' || (0x20 ≤ c.toNat && c.toNat != 0x7F)

/-- A text without the comment in front, if there is one. -/
def skipComment (cs : List Char) : List Char :=
  match cs with
  | '#' :: rest => rest.dropWhile isPrintable
  | _ => cs

/-- What follows the line break at the start of a text. -/
def afterBreak? (cs : List Char) : Option (List Char) :=
  match cs with
  | '\n' :: rest => some rest
  | '\r' :: '\n' :: rest => some rest
  | _ => none

/-- What follows the rest of a line that has nothing on it but space and a comment. -/
def afterLine? (cs : List Char) : Option (List Char) :=
  match skipComment (skipSpace cs) with
  | [] => some []
  | c :: rest => afterBreak? (c :: rest)

/-- A text without the space, comments and line breaks in front. `inComment` says whether the text
starts inside of a comment. -/
def skipLayout (inComment : Bool) : List Char → List Char
  | [] => []
  | '\n' :: rest => skipLayout false rest
  | '\r' :: '\n' :: rest => skipLayout false rest
  | c :: rest =>
    if inComment then
      if isPrintable c then skipLayout true rest else c :: rest
    else if c = '#' then skipLayout true rest
    else if isSpace c then skipLayout false rest
    else c :: rest

end Datamodel.Toml
