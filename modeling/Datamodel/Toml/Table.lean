import Datamodel.Value

/-!
Tables as the parts of a TOML text put them together. A table can be opened by its own header, come
into being because the header of another table lies in it, or come into being because a dotted key
leads through it. Which of these it was decides who may add to it later: a header may open a table
that another header implied, and dotted keys may go on in a table that dotted keys made.
-/

namespace Datamodel.Toml

/-- How a table came into being. -/
inductive Origin where
  | opened
  | implied
  | dotted
  deriving DecidableEq, Repr

/-- What stands under a name: a value, a table that can still grow, or a list of tables of which
only the last one can grow. The earlier tables of a list are kept in reverse. -/
inductive Node where
  | leaf (v : Value)
  | table (origin : Origin) (members : List (String × Node))
  | tables (last : List (String × Node)) (earlier : List (List (String × Node)))

/-- What stands in a table, in the order in which the names came up. -/
abbrev Members :=
  List (String × Node)

/-- Where a key leads: the names of the tables on the way, and the name at the end. -/
structure Key where
  path : List String
  name : String

/-- A member of a table as a text gives it. -/
structure Entry where
  key : Key
  value : Value

namespace Members

/-- The members, with what stands under a name that is there replaced. -/
def replace (name : String) (node : Node) (members : Members) : Members :=
  members.map fun m => if m.1 = name then (name, node) else m

/-- The members without the one of a name. -/
def erase (name : String) (members : Members) : Members :=
  members.filter (·.1 ≠ name)

/-- Changes the table at the end of a path. Tables that are missing on the way are made, with the
given origin. A path does not lead through values, and a dotted key does not lead through a table
with a header of its own. -/
def changeAt (made : Origin) (change : Origin → Members → Option Members) :
    List String → Origin → Members → Option Members
  | [], origin, members => change origin members
  | name :: path, _, members =>
    match members.lookup name with
    | none => do
      let inner ← changeAt made change path made []
      return members ++ [(name, .table made inner)]
    | some (.leaf _) => none
    | some (.table origin inner) =>
      if made = .dotted ∧ origin = .opened then none
      else do
        let inner ← changeAt made change path origin inner
        return replace name (.table origin inner) members
    | some (.tables last earlier) => do
      let last ← changeAt made change path .opened last
      return replace name (.tables last earlier) members

/-- Adds a value under a name that is free. A dotted key adds only to tables that dotted keys made,
and a plain key only to others. -/
def add (dotted : Bool) (name : String) (v : Value) (origin : Origin) (members : Members) :
    Option Members :=
  if (origin == .dotted) != dotted then none
  else if (members.lookup name).isSome then none
  else some (members ++ [(name, .leaf v)])

/-- Adds the entries of a table in turn. -/
def fill (entries : List Entry) (members : Members) : Option Members :=
  entries.foldlM
    (fun members e =>
      changeAt .dotted (add (!e.key.path.isEmpty) e.key.name e.value) e.key.path .opened members)
    members

/-- Adds a table with a header of its own. It stands behind all that is there, also if it was
implied before. -/
def addTable (name : String) (entries : List Entry) (_ : Origin) (members : Members) :
    Option Members :=
  match members.lookup name with
  | none => do
    let inner ← fill entries []
    return members ++ [(name, .table .opened inner)]
  | some (.table .implied inner) => do
    let inner ← fill entries inner
    return erase name members ++ [(name, .table .opened inner)]
  | some _ => none

/-- Adds a table to a list of tables. -/
def addItem (name : String) (entries : List Entry) (_ : Origin) (members : Members) :
    Option Members :=
  match members.lookup name with
  | none => do
    let inner ← fill entries []
    return members ++ [(name, .tables inner [])]
  | some (.tables last earlier) => do
    let inner ← fill entries []
    return replace name (.tables inner (last :: earlier)) members
  | some _ => none

end Members

mutual

/-- The value of what stands under a name. -/
def Node.value : Node → Value
  | .leaf v => v
  | .table _ members => .table (memberValues members) true
  | .tables last earlier =>
    .list ((itemValues earlier).reverse ++ [.table (memberValues last) true]) true

def memberValues : List (String × Node) → List (Option String × Value)
  | [] => []
  | (name, node) :: rest => (some name, node.value) :: memberValues rest

def itemValues : List (List (String × Node)) → List Value
  | [] => []
  | members :: rest => .table (memberValues members) true :: itemValues rest

end

/-- The value of a table with the given entries and no other. -/
def tableOf (entries : List Entry) : Option Value := do
  let members ← Members.fill entries []
  return .table (memberValues members) true

/-- A part of a text that starts with a header: the table it is about, whether that is one more
table of a list, and what stands in it. -/
structure Section where
  key : Key
  isItem : Bool
  entries : List Entry

/-- Adds what a part of a text is about. -/
def Members.addSection (members : Members) (s : Section) : Option Members :=
  Members.changeAt .implied
    (if s.isItem then Members.addItem s.key.name s.entries
      else Members.addTable s.key.name s.entries)
    s.key.path .opened members

/-- The value of a text: the entries before the first header, and the parts after it. -/
def documentOf (entries : List Entry) (sections : List Section) : Option Value := do
  let top ← Members.fill entries []
  let members ← sections.foldlM Members.addSection top
  return .table (memberValues members) true

end Datamodel.Toml
