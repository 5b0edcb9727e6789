/-!
JSON values as they are written: compactly, with the members of an object in the order given.
In a string the quotation mark, the backslash and the control characters are escaped and nothing
else is.
-/

namespace Datamodel

/-- A JSON value without numbers. -/
inductive Json where
  | null
  | bool (b : Bool)
  | text (s : String)
  | list (items : List Json)
  | object (members : List (String × Json))

namespace Json

/-- A hexadecimal digit, in lower case. -/
def hexDigit (n : Nat) : Char :=
  if n < 10 then Char.ofNat (0x30 + n) else Char.ofNat (0x57 + n)

/-- A character inside a string. -/
def escaped (c : Char) : List Char :=
  if c = '"' then ['\\', '"']
  else if c = '\\' then ['\\', '\\']
  else if c = '\x08' then ['\\', 'b']
  else if c = '\t' then ['\\', 't']
  else if c = '\n' then ['\\', 'n']
  else if c = '\x0c' then ['\\', 'f']
  else if c = '\r' then ['\\', 'r']
  else if c.toNat < 0x20 then
    ['\\', 'u', '0', '0', hexDigit (c.toNat / 16), hexDigit (c.toNat % 16)]
  else [c]

def writeText (s : String) : List Char :=
  '"' :: (s.toList.flatMap escaped ++ ['"'])

mutual

def write : Json → List Char
  | null => "null".toList
  | bool true => "true".toList
  | bool false => "false".toList
  | text s => writeText s
  | list items => '[' :: writeItems items
  | object members => '{' :: writeMembers members

/-- The items of a list, up to the closing bracket. -/
def writeItems : List Json → List Char
  | [] => [']']
  | [v] => v.write ++ [']']
  | v :: vs => v.write ++ ',' :: writeItems vs

/-- The members of an object, up to the closing brace. -/
def writeMembers : List (String × Json) → List Char
  | [] => ['}']
  | [(name, v)] => writeText name ++ ':' :: (v.write ++ ['}'])
  | (name, v) :: ms => writeText name ++ ':' :: (v.write ++ ',' :: writeMembers ms)

end

def compact (v : Json) : String :=
  String.ofList v.write

/-- A string, or null where there is none. -/
def ofOption : Option String → Json
  | some s => text s
  | none => null

end Json

end Datamodel
