import Datamodel.Document.Diagnostic
import Datamodel.Error

/-!
How commands write to a terminal. Styles and colours are switched on and off by control sequences.
-/

namespace Datamodel.Terminal

def sequence (code : String) : String :=
  "\x1b[" ++ code ++ "m"

def between (on off text : String) : String :=
  sequence on ++ text ++ sequence off

def bold (text : String) : String :=
  between "1" "0" text

def faint (text : String) : String :=
  between "2" "0" text

inductive Colour where
  | red
  | green
  | yellow
  | cyan
  | white

def Colour.code : Colour → String
  | red => "31"
  | green => "32"
  | yellow => "33"
  | cyan => "36"
  | white => "37"

def coloured (colour : Colour) (text : String) : String :=
  between colour.code "39" text

/-- A title, underlined, with a blank line before and after it. -/
def header (title : String) : String :=
  "\n" ++ coloured .cyan (bold title) ++ "\n" ++
    faint (String.ofList (title.toList.map fun _ => '─')) ++ "\n\n"

def heading (title : String) : String :=
  coloured .white (bold title) ++ "\n"

/-- A line with a name and what belongs to it. -/
def entry (name value : String) : String :=
  "  " ++ faint name ++ ": " ++ value ++ "\n"

/-- A line about one of several steps. -/
def step (index count : Nat) (text : String) : String :=
  faint ("[" ++ toString index ++ "/" ++ toString count ++ "]") ++ " " ++ text ++ "\n"

/-- A line in a colour that starts with a mark. -/
def marked (colour : Colour) (mark text : String) : String :=
  bold (coloured colour mark) ++ " " ++ coloured colour text ++ "\n"

def success (text : String) : String :=
  marked .green "✔" text

def failure (text : String) : String :=
  marked .red "✖" text

/-- A line about a relation that a document leaves out or weakens. -/
def diagnostic (d : Diagnostic) : String :=
  marked .yellow "⚠" d.message

def violation (v : Violation) : String :=
  "  " ++ coloured .red "✖" ++ " " ++ v.message ++ "\n"

end Datamodel.Terminal
