import Datamodel.Number.Binary64

/-!
Dates and times of day in TOML texts. They are checked against the calendar and the clock, and
nothing is kept of them.
-/

namespace Datamodel.Toml

/-- The number that the first `count` characters stand for if they are digits and the number is in
the given range, and what follows them. -/
def readFixed (count low high : Nat) (cs : List Char) : Option (Nat × List Char) :=
  let ds := cs.take count
  let n := Number.ofDigits ds
  if ds.length = count ∧ ds.all (·.isDigit) ∧ low ≤ n ∧ n ≤ high then some (n, cs.drop count)
  else none

/-- What follows a character at the start of a text. -/
def afterChar? (c : Char) (cs : List Char) : Option (List Char) :=
  match cs with
  | d :: rest => if d = c then some rest else none
  | [] => none

def daysOf (year month : Nat) : Nat :=
  if month = 2 then
    if year % 4 = 0 ∧ (year % 100 ≠ 0 ∨ year % 400 = 0) then 29 else 28
  else if month = 4 ∨ month = 6 ∨ month = 9 ∨ month = 11 then 30
  else 31

/-- What follows the date at the start of a text. -/
def afterDate? (cs : List Char) : Option (List Char) := do
  let (year, rest) ← readFixed 4 0 9999 cs
  let (month, rest) ← readFixed 2 1 12 (← afterChar? '-' rest)
  let (_, rest) ← readFixed 2 1 (daysOf year month) (← afterChar? '-' rest)
  return rest

/-- What follows the fraction of a second, if there is one. -/
def afterFraction (cs : List Char) : List Char :=
  match cs with
  | '.' :: d :: rest => if d.isDigit then rest.dropWhile (·.isDigit) else cs
  | _ => cs

/-- What follows the time of day at the start of a text. A second may be a leap second. -/
def afterTime? (cs : List Char) : Option (List Char) := do
  let (_, rest) ← readFixed 2 0 23 cs
  let (_, rest) ← readFixed 2 0 59 (← afterChar? ':' rest)
  let (_, rest) ← readFixed 2 0 60 (← afterChar? ':' rest)
  return afterFraction rest

/-- What follows the distance from universal time at the start of a text. -/
def afterOffset? (cs : List Char) : Option (List Char) :=
  match cs with
  | c :: rest =>
    if c = 'Z' ∨ c = 'z' then some rest
    else if c = '+' ∨ c = '-' then do
      let (_, rest) ← readFixed 2 0 23 rest
      let (_, rest) ← readFixed 2 0 59 (← afterChar? ':' rest)
      return rest
    else none
  | [] => none

/-- What follows the time of day that a text adds to a date, if it adds one. -/
def afterTimeOfDate? (cs : List Char) : Option (List Char) :=
  match cs with
  | c :: rest =>
    if c = 'T' ∨ c = 't' ∨ c = ' ' then
      (afterTime? rest).map fun after => (afterOffset? after).getD after
    else none
  | [] => none

/-- What follows the date, with or without a time of day, or the time of day alone, at the start of
a text. -/
def afterMoment? (cs : List Char) : Option (List Char) :=
  match afterDate? cs with
  | some after => some ((afterTimeOfDate? after).getD after)
  | none => afterTime? cs

end Datamodel.Toml
