import Datamodel.Toml.Moment
import Datamodel.Toml.Numeral
import Datamodel.Toml.Quoted
import Datamodel.Toml.Table
import Datamodel.Value.Decoding

/-!
Reading TOML texts. A text is read as a whole before anything is made of it, so there is either
the value of the text or none. Every call of the reader for values consumes a character or is the
last one, so the length of the text bounds their number.
-/

namespace Datamodel.Toml

/-- A key has fewer parts than this. -/
def keyLimit : Nat :=
  80

/-- Lists and inline tables may lie this deep in each other. -/
def depthLimit : Nat :=
  79

/-- The characters of a key that needs no quotation marks. -/
def isBare (c : Char) : Bool :=
  c.isAlphanum || c == '_' || c == '-'

/-- One part of a key, and what follows it. -/
def readName (cs : List Char) : Option (String × List Char) :=
  match cs with
  | [] => none
  | c :: _ =>
    if c = '"' ∨ c = '\'' then readLineText cs
    else
      let name := cs.takeWhile isBare
      if name.isEmpty then none else some (String.ofList name, cs.dropWhile isBare)

/-- A key of at most `parts` parts with points between them and space around each, and what follows
it. The first part is the first of the result. -/
def readParts (parts : Nat) (cs : List Char) : Option (String × List String × List Char) :=
  match parts with
  | 0 => none
  | parts + 1 => do
    let (name, afterName) ← readName (skipSpace cs)
    match skipSpace afterName with
    | '.' :: rest =>
      let (next, others, after) ← readParts parts rest
      return (name, next :: others, after)
    | after => return (name, [], after)

/-- The key whose first part is `name` and whose other parts are the given ones. -/
def Key.ofParts (name : String) : List String → Key
  | [] => ⟨[], name⟩
  | next :: others =>
    let rest := ofParts next others
    ⟨name :: rest.path, rest.name⟩

/-- A key with the space around it, and what follows it. -/
def readKey (cs : List Char) : Option (Key × List Char) := do
  let (name, others, after) ← readParts (keyLimit - 1) cs
  return (Key.ofParts name others, after)

/-- What follows a word at the start of a text. -/
def afterWord? (word : List Char) (cs : List Char) : Option (List Char) :=
  if word.isPrefixOf cs then some (cs.drop word.length) else none

/-- A value that has no parts, and what follows it. -/
def readAtom (cs : List Char) : Option (Value × List Char) :=
  match cs with
  | [] => none
  | c :: _ =>
    if c = '"' ∨ c = '\'' then
      (readText cs).map fun (content, after) => (.text (some content), after)
    else if c = 't' then (afterWord? "true".toList cs).map fun after => (.bool true, after)
    else if c = 'f' then (afterWord? "false".toList cs).map fun after => (.bool false, after)
    else
      match afterMoment? cs with
      | some after => some (.date, after)
      | none => (afterNumeral? cs).map fun after => (.number true, after)

mutual

/-- The value at the start of a text, and what follows it. At most `depth` lists and inline tables
may be opened. -/
def readValue (depth : Nat) : Nat → List Char → Option (Value × List Char)
  | 0, _ => none
  | fuel + 1, cs =>
    match cs, depth with
    | '[' :: rest, d + 1 => do
      let (items, after) ← readItems d fuel (skipLayout false rest)
      return (.list items true, after)
    | '[' :: _, 0 => none
    | '{' :: rest, d + 1 =>
      match skipSpace rest with
      | '}' :: after => some (.table [] true, after)
      | _ => do
        let (entries, after) ← readEntries d fuel rest
        let v ← tableOf entries
        return (v, after)
    | '{' :: _, 0 => none
    | _, _ => readAtom cs

/-- The items of a list, each of which may be followed by a comma if it is the last, and what
follows the closing bracket. -/
def readItems (depth : Nat) : Nat → List Char → Option (List Value × List Char)
  | 0, _ => none
  | _ + 1, ']' :: after => some ([], after)
  | fuel + 1, cs => do
    let (v, afterValue) ← readValue depth fuel cs
    match skipLayout false afterValue with
    | ',' :: rest =>
      let (vs, after) ← readItems depth fuel (skipLayout false rest)
      return (v :: vs, after)
    | ']' :: after => return ([v], after)
    | _ => none

/-- The entries of an inline table, of which there is one at least, and what follows the closing
brace. -/
def readEntries (depth : Nat) : Nat → List Char → Option (List Entry × List Char)
  | 0, _ => none
  | fuel + 1, cs => do
    let (key, afterKey) ← readKey cs
    match afterKey with
    | '=' :: valued =>
      let (value, afterValue) ← readValue depth fuel (skipSpace valued)
      match skipSpace afterValue with
      | ',' :: rest =>
        let (entries, after) ← readEntries depth fuel rest
        return (⟨key, value⟩ :: entries, after)
      | '}' :: after => return ([⟨key, value⟩], after)
      | _ => none
    | _ => none

end

/-- The entry on a line, and what follows the line. -/
def readEntry (cs : List Char) : Option (Entry × List Char) := do
  let (key, afterKey) ← readKey cs
  match afterKey with
  | '=' :: valued =>
    let (value, afterValue) ← readValue depthLimit (2 * cs.length + 2) (skipSpace valued)
    let after ← afterLine? afterValue
    return (⟨key, value⟩, after)
  | _ => none

/-- The header on a line, and what follows the line: the key, and whether it is in double
brackets. -/
def readHeader (cs : List Char) : Option (Key × Bool × List Char) :=
  match cs with
  | '[' :: '[' :: rest => do
    let (key, afterKey) ← readKey rest
    match afterKey with
    | ']' :: ']' :: afterHeader =>
      let after ← afterLine? afterHeader
      return (key, true, after)
    | _ => none
  | '[' :: rest => do
    let (key, afterKey) ← readKey rest
    match afterKey with
    | ']' :: afterHeader =>
      let after ← afterLine? afterHeader
      return (key, false, after)
    | _ => none
  | _ => none

/-- The entries of a text up to the first header, and the parts after it. `fuel` is at least the
number of lines. -/
def readLines : Nat → List Char → Option (List Entry × List Section)
  | 0, _ => none
  | fuel + 1, cs =>
    match skipSpace cs with
    | [] => some ([], [])
    | '[' :: rest => do
      let (key, isItem, after) ← readHeader ('[' :: rest)
      let (entries, sections) ← readLines fuel after
      return ([], ⟨key, isItem, entries⟩ :: sections)
    | line =>
      match afterLine? line with
      | some after => readLines fuel after
      | none => do
        let (entry, after) ← readEntry line
        let (entries, sections) ← readLines fuel after
        return (entry :: entries, sections)

/-- A text without the byte order mark it may start with. -/
def skipMark (cs : List Char) : List Char :=
  match cs with
  | c :: rest => if c = Char.ofNat 0xFEFF then rest else cs
  | [] => []

/-- The value of a text, if it is one. -/
def read (s : String) : Option Value := do
  let cs := skipMark s.toList
  let (entries, sections) ← readLines (cs.length + 1) cs
  documentOf entries sections

/-- What a text describes. The text is read to its end before anything is made of it. -/
def parse {α : Type} (decode : Value → Decoded α) (s : String) : Decoded α :=
  match read s with
  | some v => decode v
  | none => .error .malformed

end Datamodel.Toml
