import Datamodel.Text
import Datamodel.Value

/-!
From values to records and choices. A record is read from a table of its members or from a list of
them in order of declaration. The members are first gone through in the order of the text, so that
of several faults the first one is reported; a member that is missing altogether is reported after
that. Then every member is found by its name, wherever it stood.
-/

namespace Datamodel

/-- Why a value does not describe what it should. -/
inductive DecodeError where
  | missingField (name : String)
  | duplicateField (name : String)
  | unknownField (name : String) (expected : List String)
  | unknownVariant (name : String) (expected : List String)
  | malformed
  deriving DecidableEq, Repr

namespace DecodeError

/-- The names that were expected, as a sentence lists them. -/
def oneOf : List String → String
  | [] => "there are none"
  | [a] => Text.quoted a
  | [a, b] => Text.quoted a ++ " or " ++ Text.quoted b
  | names => "one of " ++ String.intercalate ", " (names.map Text.quoted)

/-- The error in words, where it is about the name of a member or of a choice. -/
def detail? : DecodeError → Option String
  | missingField name => some ("missing field " ++ Text.quoted name)
  | duplicateField name => some ("duplicate field " ++ Text.quoted name)
  | unknownField name expected =>
    some ("unknown field " ++ Text.quoted name ++ ", expected " ++ oneOf expected)
  | unknownVariant name expected =>
    some ("unknown variant " ++ Text.quoted name ++ ", expected " ++ oneOf expected)
  | malformed => none

end DecodeError

/-- What a value turned out to describe. -/
abbrev Decoded (α : Type) :=
  Except DecodeError α

namespace Value

def asText : Value → Decoded String
  | text (some s) => .ok s
  | _ => .error .malformed

def asBool : Value → Decoded Bool
  | bool b => .ok b
  | _ => .error .malformed

/-- Something that may be given as nothing. -/
def asOptional {α : Type} (decode : Value → Decoded α) : Value → Decoded (Option α)
  | null => .ok none
  | v => some <$> decode v

/-- The items of a list, each decoded in turn. -/
def decodeItems {α : Type} (decode : Value → Decoded α) : List Value → Decoded (List α)
  | [] => .ok []
  | v :: vs => do
    let first ← decode v
    let others ← decodeItems decode vs
    return first :: others

/-- A list of things of one kind. -/
def asList {α : Type} (decode : Value → Decoded α) : Value → Decoded (List α)
  | list items closed => do
    let decoded ← decodeItems decode items
    if closed then return decoded else .error .malformed
  | _ => .error .malformed

def chosen {α : Type} (options : List (String × α)) (name : String) : Decoded α :=
  match options.lookup name with
  | some a => .ok a
  | none => .error (.unknownVariant name (options.map (·.1)))

/-- One of several named choices: its name, or a table whose first member has its name and an
empty value, and which has no other member. -/
def asChoice {α : Type} (options : List (String × α)) (isEmptyValue : Value → Bool) :
    Value → Decoded α
  | text (some name) => chosen options name
  | table ((some name, v) :: others) closed => do
    let a ← chosen options name
    if isEmptyValue v && others.isEmpty && closed then return a else .error .malformed
  | _ => .error .malformed

/-- One of several named choices, where a table must have exactly one member for its name to be
looked at. -/
def asSoleChoice {α : Type} (options : List (String × α)) (isEmptyValue : Value → Bool) :
    Value → Decoded α
  | text (some name) => chosen options name
  | table [(some name, v)] _ => do
    let a ← chosen options name
    if isEmptyValue v then return a else .error .malformed
  | _ => .error .malformed

/-- The value that stands for nothing in a notation with such a value. -/
def isNull : Value → Bool
  | null => true
  | _ => false

def isEmptyTable : Value → Bool
  | table [] _ => true
  | _ => false

def isEmptyList : Value → Bool
  | list [] _ => true
  | _ => false

/-- A member that a record knows, and the test its value has to pass. -/
structure Slot where
  name : String
  check : Value → Decoded Unit

/-- The slot of a member that is read in some way. -/
def slot {α : Type} (name : String) (decode : Value → Decoded α) : Slot :=
  ⟨name, fun v => (decode v).map fun _ => ()⟩

/-- What a record does with something that is none of its members. -/
inductive Strangers where
  | ignored
  | refused
  deriving DecidableEq, Repr

/-- Members that passed their tests, and whether they came without names, in order. -/
structure Record where
  members : List (String × Value)
  positional : Bool

/-- Goes through the members of a table in order and keeps the known ones. `seen` are the names
that came before. -/
def knownMembers (slots : List Slot) (strangers : Strangers) (seen : List String) :
    List (Option String × Value) → Decoded (List (String × Value))
  | [] => .ok []
  | (none, _) :: _ => .error .malformed
  | (some name, v) :: rest =>
    match slots.find? (·.name == name) with
    | some known => do
      if seen.contains name then .error (.duplicateField name)
      known.check v
      let others ← knownMembers slots strangers (name :: seen) rest
      return (name, v) :: others
    | none =>
      match strangers with
      | .refused => .error (.unknownField name (slots.map (·.name)))
      | .ignored => do
        if !v.isWhole then .error .malformed
        knownMembers slots strangers seen rest

/-- Names the items of a list by the slots in their order. Items for which there is no slot, the
surplus, are not looked at. -/
def placedMembers (surplus : Strangers) :
    List Slot → List Value → Decoded (List (String × Value))
  | s :: slots, v :: vs => do
    s.check v
    let others ← placedMembers surplus slots vs
    return (s.name, v) :: others
  | [], _ :: _ =>
    match surplus with
    | .refused => .error .malformed
    | .ignored => .ok []
  | _, [] => .ok []

/-- A record with the given slots. A table may have members for which there is no slot, the
strangers, and a list more items than there are slots. -/
def asRecord (slots : List Slot) (strangers surplus : Strangers) : Value → Decoded Record
  | table members closed => do
    let known ← knownMembers slots strangers [] members
    if closed then return ⟨known, false⟩ else .error .malformed
  | list items closed => do
    let placed ← placedMembers surplus slots items
    if closed then return ⟨placed, true⟩ else .error .malformed
  | date => do
    let known ← knownMembers slots strangers [] [(some dateMember, text (some ""))]
    return ⟨known, false⟩
  | _ => .error .malformed

namespace Record

/-- A member that must be there. -/
def required {α : Type} (r : Record) (name : String) (decode : Value → Decoded α) : Decoded α :=
  match r.members.lookup name with
  | some v => decode v
  | none => .error (if r.positional then .malformed else .missingField name)

/-- A member that has a value of its own where it is missing. -/
def optional {α : Type} (r : Record) (name : String) (decode : Value → Decoded α)
    (fallback : α) : Decoded α :=
  match r.members.lookup name with
  | some v => decode v
  | none => .ok fallback

end Record

end Value

end Datamodel
