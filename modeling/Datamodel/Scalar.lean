/-!
The types a field can have. A type is declared by its label and written into a document as its
token; the two differ for dates and for floating point numbers. A label that names no scalar type
is kept as it is, so that types of other databases pass through.
-/

namespace Datamodel

/-- The scalar types every document knows. -/
inductive Scalar where
  | int
  | string
  | stringList
  | boolean
  | date
  | float
  | json
  deriving DecidableEq, Repr

namespace Scalar

/-- The scalar types by their proper names, in order of declaration. -/
def names : List (String × Scalar) :=
  [("Int", int), ("String", string), ("StringList", stringList), ("Boolean", boolean),
    ("Date", date), ("Float", float), ("Json", json)]

def name : Scalar → String
  | int => "Int"
  | string => "String"
  | stringList => "StringList"
  | boolean => "Boolean"
  | date => "Date"
  | float => "Float"
  | json => "Json"

def label : Scalar → String
  | int => "Int"
  | string => "String"
  | stringList => "String[]"
  | boolean => "Boolean"
  | date => "Date"
  | float => "float"
  | json => "Json"

def token : Scalar → String
  | int => "Int"
  | string => "String"
  | stringList => "String[]"
  | boolean => "Boolean"
  | date => "DateTime"
  | float => "Float"
  | json => "Json"

/-- The scalar type with a label. Case matters, and `Float` is a second label of `float`. -/
def ofLabel? (s : String) : Option Scalar :=
  if s = "Int" then some int
  else if s = "String" then some string
  else if s = "String[]" then some stringList
  else if s = "Boolean" then some boolean
  else if s = "Date" then some date
  else if s = "float" ∨ s = "Float" then some float
  else if s = "Json" then some json
  else none

@[simp]
theorem ofLabel?_label (scalar : Scalar) : ofLabel? scalar.label = some scalar := by
  cases scalar <;> decide

end Scalar

/-- The type of a field: a scalar type, or a label that names none. -/
inductive FieldType where
  | scalar (scalar : Scalar)
  | unsupported (label : String)
  deriving DecidableEq, Repr

namespace FieldType

/-- The type a label stands for. -/
def ofLabel (label : String) : FieldType :=
  match Scalar.ofLabel? label with
  | some s => scalar s
  | none => unsupported label

def label : FieldType → String
  | scalar s => s.label
  | unsupported label => label

def token : FieldType → String
  | scalar s => s.token
  | unsupported label => label

/-- No label of a scalar type is treated as unsupported. -/
def IsProper : FieldType → Prop
  | scalar _ => True
  | unsupported label => Scalar.ofLabel? label = none

theorem isProper_ofLabel (label : String) : (ofLabel label).IsProper := by
  unfold ofLabel
  split
  · trivial
  · assumption

theorem ofLabel_label {type : FieldType} (h : type.IsProper) : ofLabel type.label = type := by
  cases type with
  | scalar s => simp [ofLabel, label]
  | unsupported l =>
    have hNone : Scalar.ofLabel? l = none := h
    simp [ofLabel, label, hNone]

end FieldType

end Datamodel
