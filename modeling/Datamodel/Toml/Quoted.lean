import Datamodel.Text
import Datamodel.Toml.Layout

/-!
Strings in TOML texts. Between quotation marks a backslash starts an escape; between apostrophes
every character stands for itself. Three marks open a string that may go on over several lines: a
line break right after them does not count, and a line break counts as a line feed however it is
written.
-/

namespace Datamodel.Toml

/-- The character that a number stands for, which must not be a surrogate. -/
def charOf? (n : Nat) : Option Char :=
  if n.isValidChar then some (Char.ofNat n) else none

/-- The character that hexadecimal digits stand for. -/
def hexChar? (ds : List Char) : Option Char := do
  charOf? (← Text.hexNumber? ds)

/-- The character a backslash and a letter stand for. -/
def unescaped? (c : Char) : Option Char :=
  if c = '"' then some '"'
  else if c = '\\' then some '\\'
  else if c = 'b' then some '\x08'
  else if c = 'f' then some '\x0c'
  else if c = 'n' then some '\n'
  else if c = 'r' then some '\r'
  else if c = 't' then some '\t'
  else none

/-- A character in front of the content of a string. -/
def prepend (c : Char) : List Char × List Char → List Char × List Char
  | (content, after) => (c :: content, after)

/-- The content of a string of one line up to its quotation mark, and what follows it. -/
def scanBasic : List Char → Option (List Char × List Char)
  | [] => none
  | '"' :: rest => some ([], rest)
  | '\\' :: 'u' :: a :: b :: c :: d :: rest => do
    let x ← hexChar? [a, b, c, d]
    prepend x <$> scanBasic rest
  | '\\' :: 'U' :: a :: b :: c :: d :: e :: f :: g :: h :: rest => do
    let x ← hexChar? [a, b, c, d, e, f, g, h]
    prepend x <$> scanBasic rest
  | '\\' :: e :: rest => do
    let x ← unescaped? e
    prepend x <$> scanBasic rest
  | c :: rest => if c ≠ '\\' ∧ isPrintable c then prepend c <$> scanBasic rest else none

/-- The content of a string of one line up to its apostrophe, and what follows it. -/
def scanLiteral : List Char → Option (List Char × List Char)
  | [] => none
  | '\'' :: rest => some ([], rest)
  | c :: rest => if isPrintable c then prepend c <$> scanLiteral rest else none

/-- The end of a string of several lines, after the three marks that close it: up to two more marks
still belong to the content. -/
def scanClosing (mark : Char) : List Char → List Char × List Char
  | c :: d :: rest =>
    if c = mark then
      if d = mark then ([mark, mark], rest) else ([mark], d :: rest)
    else ([], c :: d :: rest)
  | [c] => if c = mark then ([mark], []) else ([], [c])
  | [] => ([], [])

/-- Whether there is nothing but space before the next line break. -/
def opensBreak (cs : List Char) : Bool :=
  (afterBreak? (skipSpace cs)).isSome

/-- The content of a string of several lines between quotation marks, and what follows it. A
backslash at the end of a line takes away the line break and all space and line breaks after it,
which are then being skipped. -/
def scanLongBasic (skipping : Bool) : List Char → Option (List Char × List Char)
  | [] => none
  | '"' :: '"' :: '"' :: rest => some (scanClosing '"' rest)
  | '\n' :: rest =>
    if skipping then scanLongBasic true rest else prepend '\n' <$> scanLongBasic false rest
  | '\r' :: '\n' :: rest =>
    if skipping then scanLongBasic true rest else prepend '\n' <$> scanLongBasic false rest
  | '\\' :: 'u' :: a :: b :: c :: d :: rest => do
    let x ← hexChar? [a, b, c, d]
    prepend x <$> scanLongBasic false rest
  | '\\' :: 'U' :: a :: b :: c :: d :: e :: f :: g :: h :: rest => do
    let x ← hexChar? [a, b, c, d, e, f, g, h]
    prepend x <$> scanLongBasic false rest
  | '\\' :: e :: rest =>
    match unescaped? e with
    | some x => prepend x <$> scanLongBasic false rest
    | none => if opensBreak (e :: rest) then scanLongBasic true (e :: rest) else none
  | c :: rest =>
    if skipping && isSpace c then scanLongBasic true rest
    else if c ≠ '\\' ∧ isPrintable c then prepend c <$> scanLongBasic false rest
    else none

/-- The content of a string of several lines between apostrophes, and what follows it. -/
def scanLongLiteral : List Char → Option (List Char × List Char)
  | [] => none
  | '\'' :: '\'' :: '\'' :: rest => some (scanClosing '\'' rest)
  | '\n' :: rest => prepend '\n' <$> scanLongLiteral rest
  | '\r' :: '\n' :: rest => prepend '\n' <$> scanLongLiteral rest
  | c :: rest => if isPrintable c then prepend c <$> scanLongLiteral rest else none

/-- A text without the line break in front, if there is one. -/
def skipBreak (cs : List Char) : List Char :=
  (afterBreak? cs).getD cs

/-- The content of a string of one line at the start of a text, and what follows it. -/
def readLineText (cs : List Char) : Option (String × List Char) := do
  let (content, after) ←
    match cs with
    | '"' :: rest => scanBasic rest
    | '\'' :: rest => scanLiteral rest
    | _ => none
  return (String.ofList content, after)

/-- The content of a string at the start of a text, and what follows it. -/
def readText (cs : List Char) : Option (String × List Char) := do
  match cs with
  | '"' :: '"' :: '"' :: rest =>
    let (content, after) ← scanLongBasic false (skipBreak rest)
    return (String.ofList content, after)
  | '\'' :: '\'' :: '\'' :: rest =>
    let (content, after) ← scanLongLiteral (skipBreak rest)
    return (String.ofList content, after)
  | _ => readLineText cs

end Datamodel.Toml
