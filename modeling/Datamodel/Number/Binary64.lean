/-!
Which decimal numbers are too large for a double, that is a binary floating point number of 53
significant bits and at most 1024 bits before the point.
-/

namespace Datamodel.Number

/-- The least integer that rounds to a number of more than 1024 bits: half a unit in the last place
below the least number of 1025 bits. -/
def binary64Limit : Nat :=
  Nat.pow 2 1024 - Nat.pow 2 970

/-- The nearest integer with 53 significant bits; a tie goes to the even one. -/
def roundBinary64 (n : Nat) : Nat :=
  if n < Nat.pow 2 53 then n
  else
    let shift := n.log2 - 52
    let unit := Nat.pow 2 shift
    let kept := n / unit
    let dropped := n % unit
    let up := unit < 2 * dropped || (2 * dropped == unit && kept % 2 == 1)
    (if up then kept + 1 else kept) * unit

/-- Whether `digits * 10 ^ exponent` is too large for a double. -/
def exceedsBinary64 (digits : Nat) (exponent : Int) : Bool :=
  if digits = 0 then false
  else
    match exponent with
    | .ofNat up => 308 < up || binary64Limit ≤ digits * Nat.pow 10 up
    | .negSucc down =>
      let places := down + 1
      places ≤ digits.log2 + 1 && binary64Limit ≤ digits / Nat.pow 10 places

/-- The value of a digit. -/
def digitValue (c : Char) : Nat :=
  c.toNat - 0x30

/-- The number a list of decimal digits stands for. -/
def ofDigits (ds : List Char) : Nat :=
  ds.foldl (fun n d => 10 * n + digitValue d) 0

end Datamodel.Number
