import Datamodel.Text

/-!
Strings in JSON texts. An escape can name a UTF-16 code unit instead of a character, so a string
need not spell characters: a surrogate counts only together with the other half of its pair. Such
a string can be read past, but it has no content.
-/

namespace Datamodel.Json

/-- A part of a string: a character, or a UTF-16 code unit that an escape names. -/
inductive Piece where
  | char (c : Char)
  | unit (n : Nat)

/-- The character a backslash and a letter stand for. -/
def unescaped? (c : Char) : Option Char :=
  if c = '"' then some '"'
  else if c = '\\' then some '\\'
  else if c = '/' then some '/'
  else if c = 'b' then some '\x08'
  else if c = 'f' then some '\x0c'
  else if c = 'n' then some '\n'
  else if c = 'r' then some '\r'
  else if c = 't' then some '\t'
  else none

/-- The parts of a string up to its closing quotation mark, and what follows it. -/
def scanText : List Char → Option (List Piece × List Char)
  | [] => none
  | '"' :: rest => some ([], rest)
  | '\\' :: 'u' :: a :: b :: c :: d :: rest => do
    let n ← Text.hexNumber? [a, b, c, d]
    let (pieces, after) ← scanText rest
    return (.unit n :: pieces, after)
  | '\\' :: e :: rest => do
    let c ← unescaped? e
    let (pieces, after) ← scanText rest
    return (.char c :: pieces, after)
  | c :: rest =>
    if c = '\\' ∨ c.toNat < 0x20 then none
    else do
      let (pieces, after) ← scanText rest
      return (.char c :: pieces, after)

/-- The code units that open a pair. -/
def isHighSurrogate (n : Nat) : Bool :=
  0xD800 ≤ n && n < 0xDC00

/-- The code units that close a pair. -/
def isLowSurrogate (n : Nat) : Bool :=
  0xDC00 ≤ n && n < 0xE000

/-- The characters that the parts of a string spell. -/
def assemble : List Piece → Option (List Char)
  | [] => some []
  | .char c :: pieces => (c :: ·) <$> assemble pieces
  | .unit n :: pieces =>
    if isHighSurrogate n then
      match pieces with
      | .unit m :: others =>
        if isLowSurrogate m then
          (Char.ofNat (0x10000 + (n - 0xD800) * 0x400 + (m - 0xDC00)) :: ·) <$> assemble others
        else none
      | _ => none
    else if isLowSurrogate n then none
    else (Char.ofNat n :: ·) <$> assemble pieces

/-- The content of a string up to its closing quotation mark, if it spells characters, and what
follows it. -/
def readText (cs : List Char) : Option (Option String × List Char) := do
  let (pieces, after) ← scanText cs
  return (String.ofList <$> assemble pieces, after)

end Datamodel.Json
