import Datamodel.Number.Binary64

/-!
Numbers in JSON texts, of which nothing is kept but whether they are in the range of a double.
-/

namespace Datamodel.Json

/-- A number: the digits before and after the point, and the exponent. -/
structure Numeral where
  whole : List Char
  fraction : List Char := []
  exponent : Int := 0

namespace Numeral

/-- Takes up digits as long as the number they make is below `2 ^ 64`; the rest is left over. -/
def gather (n : Nat) : List Char → Nat × List Char
  | [] => (n, [])
  | d :: ds =>
    let next := 10 * n + Number.digitValue d
    if next < Nat.pow 2 64 then gather next ds else (n, d :: ds)

/-- Whether the number is in range. The first digits make an integer below `2 ^ 64`, which is
multiplied by a power of ten; both are rounded to doubles before and the product after. -/
def isFinite (x : Numeral) : Bool :=
  let (head, surplus) := gather 0 x.whole
  let (digits, dropped) := gather head x.fraction
  let exponent : Int :=
    surplus.length - (x.fraction.length - dropped.length : Nat) + x.exponent
  match exponent with
  | .ofNat up =>
    digits == 0 ||
      (up ≤ 308 &&
        Number.roundBinary64 digits * Number.roundBinary64 (Nat.pow 10 up) < Number.binary64Limit)
  | .negSucc _ => true

end Numeral

/-- The digits at the start of a text, of which there must be one, and what follows them. -/
def readDigits (cs : List Char) : Option (List Char × List Char) :=
  match cs.takeWhile (·.isDigit) with
  | [] => none
  | d :: ds => some (d :: ds, cs.dropWhile (·.isDigit))

/-- The exponent after its letter. -/
def readExponent (cs : List Char) : Option (Int × List Char) :=
  match cs with
  | '+' :: rest => (readDigits rest).map fun (ds, after) => (Number.ofDigits ds, after)
  | '-' :: rest => (readDigits rest).map fun (ds, after) => (-(Number.ofDigits ds : Int), after)
  | _ => (readDigits cs).map fun (ds, after) => (Number.ofDigits ds, after)

/-- The number at the start of a text, and what follows it. A whole part of several digits does
not start with zero. -/
def readNumeral (cs : List Char) : Option (Numeral × List Char) := do
  let unsigned :=
    match cs with
    | '-' :: rest => rest
    | _ => cs
  let (whole, afterWhole) ← readDigits unsigned
  if whole.length ≠ 1 ∧ whole.head? = some '0' then none
  let (fraction, afterFraction) ←
    match afterWhole with
    | '.' :: rest => readDigits rest
    | _ => some ([], afterWhole)
  let (exponent, after) ←
    match afterFraction with
    | 'e' :: rest => readExponent rest
    | 'E' :: rest => readExponent rest
    | _ => some (0, afterFraction)
  return (⟨whole, fraction, exponent⟩, after)

end Datamodel.Json
