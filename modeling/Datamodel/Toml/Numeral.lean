import Datamodel.Number.Binary64
import Datamodel.Text

/-!
Numbers in TOML texts. An integer must fit into 64 bits; a number with a fraction or an exponent
must not be too large for a double, unless it is negative. Nothing else is kept of a number.
-/

namespace Datamodel.Toml

/-- Digits that may have single underscores between them, after a first digit, and what follows
them. An underscore must have a digit after it. -/
def moreDigits? (isDigit : Char → Bool) : List Char → Option (List Char × List Char)
  | [] => some ([], [])
  | '_' :: rest =>
    match rest with
    | d :: others =>
      if isDigit d then
        (moreDigits? isDigit others).map fun (ds, after) => (d :: ds, after)
      else none
    | [] => none
  | d :: rest =>
    if isDigit d then (moreDigits? isDigit rest).map fun (ds, after) => (d :: ds, after)
    else some ([], d :: rest)

/-- Digits, of which there must be one, with underscores between them, and what follows them. -/
def readDigits (isDigit : Char → Bool) : List Char → Option (List Char × List Char)
  | d :: rest =>
    if isDigit d then (moreDigits? isDigit rest).map fun (ds, after) => (d :: ds, after)
    else none
  | [] => none

/-- The digits before the point, which start with zero only if there is no other digit. -/
def readWhole (cs : List Char) : Option (List Char × List Char) :=
  match cs with
  | '0' :: rest => some (['0'], rest)
  | _ => readDigits Char.isDigit cs

/-- Whether the text starts with a minus sign, and the text without the sign it starts with. -/
def splitSign (cs : List Char) : Bool × List Char :=
  match cs with
  | '-' :: rest => (true, rest)
  | '+' :: rest => (false, rest)
  | _ => (false, cs)

/-- The fraction after its point, if there is one. -/
def readFraction (cs : List Char) : Option (Option (List Char) × List Char) :=
  match cs with
  | '.' :: rest => (readDigits Char.isDigit rest).map fun (ds, after) => (some ds, after)
  | _ => some (none, cs)

/-- The exponent after its letter, if there is one. -/
def readExponent (cs : List Char) : Option (Option Int × List Char) :=
  match cs with
  | c :: rest =>
    if c = 'e' ∨ c = 'E' then do
      let (negative, unsigned) := splitSign rest
      let (ds, after) ← readDigits Char.isDigit unsigned
      let size : Int := Number.ofDigits ds
      return (some (if negative then -size else size), after)
    else some (none, cs)
  | [] => some (none, [])

/-- Whether an integer fits into 64 bits, of which one is for the sign. -/
def fitsInteger (negative : Bool) (size : Nat) : Bool :=
  if negative then size ≤ Nat.pow 2 63 else size < Nat.pow 2 63

/-- What follows the decimal number at the start of a text. -/
def afterDecimal? (cs : List Char) : Option (List Char) := do
  let (negative, unsigned) := splitSign cs
  let (whole, afterWhole) ← readWhole unsigned
  let (fraction, afterFraction) ← readFraction afterWhole
  let (exponent, after) ← readExponent afterFraction
  let inRange :=
    match fraction, exponent with
    | none, none => fitsInteger negative (Number.ofDigits whole)
    | _, _ =>
      let places := fraction.getD []
      negative ||
        !Number.exceedsBinary64 (Number.ofDigits (whole ++ places))
          (exponent.getD 0 - places.length)
  if inRange then some after else none

/-- What follows the number at the start of a text whose digits all stand for `bits` bits. -/
def afterBinary? (isDigit : Char → Bool) (bits : Nat) (cs : List Char) : Option (List Char) := do
  let (ds, after) ← readDigits isDigit cs
  let size := ds.foldl (fun n d => Nat.pow 2 bits * n + (Text.hexValue? d).getD 0) 0
  if fitsInteger false size then some after else none

/-- What follows the name of infinity or of what is not a number, which may have a sign. -/
def afterSpecial? (cs : List Char) : Option (List Char) :=
  match (splitSign cs).2 with
  | 'i' :: 'n' :: 'f' :: after => some after
  | 'n' :: 'a' :: 'n' :: after => some after
  | _ => none

/-- What follows the number at the start of a text. -/
def afterNumeral? (cs : List Char) : Option (List Char) :=
  match cs with
  | '0' :: 'x' :: rest => afterBinary? (fun c => (Text.hexValue? c).isSome) 4 rest
  | '0' :: 'o' :: rest => afterBinary? (fun c => '0' ≤ c && c ≤ '7') 3 rest
  | '0' :: 'b' :: rest => afterBinary? (fun c => c == '0' || c == '1') 1 rest
  | _ => (afterSpecial? cs).or (afterDecimal? cs)

end Datamodel.Toml
