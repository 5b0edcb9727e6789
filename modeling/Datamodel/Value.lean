/-!
What a reader makes of the text of a data file. Reading does not fail: the place where the text
stops making sense is kept as a broken value, and whoever goes through the value in order meets
the first fault of the text first.
-/

namespace Datamodel

/-- A value of a data file. A text is missing where its escapes do not spell characters. A list or
table is not `closed` where the text went wrong after its last member. -/
inductive Value where
  | null
  | bool (b : Bool)
  | number (finite : Bool)
  | text (content : Option String)
  | date
  | list (items : List Value) (closed : Bool)
  | table (members : List (Option String × Value)) (closed : Bool)
  | broken

namespace Value

mutual

/-- Whether the value was read to its end. -/
def isWhole : Value → Bool
  | list items closed => allWhole items && closed
  | table members closed => allWholeMembers members && closed
  | broken => false
  | _ => true

/-- Whether all items were read to their ends. -/
def allWhole : List Value → Bool
  | [] => true
  | v :: vs => v.isWhole && allWhole vs

/-- Whether all members were read to their ends. -/
def allWholeMembers : List (Option String × Value) → Bool
  | [] => true
  | (_, v) :: ms => v.isWhole && allWholeMembers ms

end

mutual

/-- Whether the value can be kept for later: it was read to its end, all of its texts and names
are texts, its numbers are in range, and it is at most `depth` lists and tables deep. -/
def isKeepable (depth : Nat) : Value → Bool
  | number finite => finite
  | text content => content.isSome
  | list items closed =>
    match depth with
    | 0 => false
    | d + 1 => allKeepable d items && closed
  | table members closed =>
    match depth with
    | 0 => false
    | d + 1 => allKeepableMembers d members && closed
  | broken => false
  | _ => true

/-- Whether all items can be kept. -/
def allKeepable (depth : Nat) : List Value → Bool
  | [] => true
  | v :: vs => v.isKeepable depth && allKeepable depth vs

/-- Whether all members can be kept. -/
def allKeepableMembers (depth : Nat) : List (Option String × Value) → Bool
  | [] => true
  | (name, v) :: ms => name.isSome && v.isKeepable depth && allKeepableMembers depth ms

end

/-- The name under which a date, seen as a table, has its only member. -/
def dateMember : String :=
  "$__toml_private_datetime"

end Value

end Datamodel
