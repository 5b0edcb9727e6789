import Datamodel.Json.Numeral
import Datamodel.Json.Quoted
import Datamodel.Value.Decoding

/-!
Reading JSON texts. The reader accepts exactly what the standard allows; where a text goes wrong
it stops, and the value holds what came before. Every call consumes a character or is the last one,
so the length of the text bounds their number. A fault in what a text describes is reported before
one that comes later in the text.
-/

namespace Datamodel.Json

/-- The characters that may stand between the parts of a text. -/
def isSpace (c : Char) : Bool :=
  c == ' ' || c == '\t' || c == '\n' || c == '\r'

def skipSpace (cs : List Char) : List Char :=
  cs.dropWhile isSpace

/-- What follows a word at the start of a text. -/
def afterWord? (word : List Char) (cs : List Char) : Option (List Char) :=
  if word.isPrefixOf cs then some (cs.drop word.length) else none

/-- A value that consists of one word. -/
def readWord (word : List Char) (v : Value) (cs : List Char) : Value × Option (List Char) :=
  match afterWord? word cs with
  | some after => (v, some after)
  | none => (.broken, none)

mutual

/-- The value at the start of a text, and what follows it unless the text goes wrong there. -/
def readValue : Nat → List Char → Value × Option (List Char)
  | 0, _ => (.broken, none)
  | fuel + 1, cs =>
    match skipSpace cs with
    | [] => (.broken, none)
    | c :: rest =>
      if c = 'n' then readWord "null".toList .null (c :: rest)
      else if c = 't' then readWord "true".toList (.bool true) (c :: rest)
      else if c = 'f' then readWord "false".toList (.bool false) (c :: rest)
      else if c = '"' then
        match readText rest with
        | some (content, after) => (.text content, some after)
        | none => (.broken, none)
      else if c = '[' then
        match skipSpace rest with
        | ']' :: after => (.list [] true, some after)
        | _ =>
          let (items, after) := readItems fuel rest
          (.list items after.isSome, after)
      else if c = '{' then
        match skipSpace rest with
        | '}' :: after => (.table [] true, some after)
        | _ =>
          let (members, after) := readMembers fuel rest
          (.table members after.isSome, after)
      else
        match readNumeral (c :: rest) with
        | some (x, after) => (.number x.isFinite, some after)
        | none => (.broken, none)

/-- The items of a list, of which there is one at least, and what follows the closing bracket. -/
def readItems : Nat → List Char → List Value × Option (List Char)
  | 0, _ => ([], none)
  | fuel + 1, cs =>
    match readValue fuel cs with
    | (v, none) => ([v], none)
    | (v, some rest) =>
      match skipSpace rest with
      | ',' :: more =>
        let (vs, after) := readItems fuel more
        (v :: vs, after)
      | ']' :: after => ([v], some after)
      | _ => ([v], none)

/-- The members of an object, of which there is one at least, and what follows the closing
brace. -/
def readMembers : Nat → List Char → List (Option String × Value) × Option (List Char)
  | 0, _ => ([], none)
  | fuel + 1, cs =>
    match skipSpace cs with
    | '"' :: quoted =>
      match readText quoted with
      | none => ([], none)
      | some (name, afterName) =>
        match skipSpace afterName with
        | ':' :: valued =>
          match readValue fuel valued with
          | (v, none) => ([(name, v)], none)
          | (v, some rest) =>
            match skipSpace rest with
            | ',' :: more =>
              let (ms, after) := readMembers fuel more
              ((name, v) :: ms, after)
            | '}' :: after => ([(name, v)], some after)
            | _ => ([(name, v)], none)
        | _ => ([(name, .broken)], none)
    | _ => ([], none)

end

/-- The value of a text, and whether the text holds that value and nothing after it. -/
def read (s : String) : Value × Bool :=
  match readValue (2 * s.toList.length + 2) s.toList with
  | (v, some rest) => (v, (skipSpace rest).isEmpty)
  | (v, none) => (v, false)

/-- What a text describes, when it holds one value and nothing else. -/
def parse {α : Type} (decode : Value → Decoded α) (s : String) : Decoded α := do
  let (v, complete) := read s
  let a ← decode v
  if complete then return a else .error .malformed

end Datamodel.Json
