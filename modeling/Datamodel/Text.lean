/-!
Texts, in so far as all of the project asks the same of them: names as messages quote them, white
space at the ends of a text, texts inside other texts, numbers in hexadecimal digits of either case,
and the order of texts by their UTF-16 code units. That order differs from the order of characters
only where a character outside the basic plane meets one of U+E000 to U+FFFF: surrogates come first.
-/

namespace Datamodel.Text

/-- A name as messages quote it. -/
def quoted (name : String) : String :=
  "`" ++ name ++ "`"

/-- The characters with the Unicode property White_Space. The zero width space U+200B and the
Mongolian vowel separator U+180E are not among them. -/
def isBlank (c : Char) : Bool :=
  let n := c.toNat
  (0x09 ≤ n && n ≤ 0x0D) || n == 0x20 || n == 0x85 || n == 0xA0 || n == 0x1680 ||
    (0x2000 ≤ n && n ≤ 0x200A) || n == 0x2028 || n == 0x2029 || n == 0x202F || n == 0x205F ||
    n == 0x3000

/-- The characters from the last one that is not white space backwards. -/
def trimEnd (cs : List Char) : List Char :=
  (cs.reverse.dropWhile isBlank).reverse

/-- A text without the white space at its two ends. -/
def trim (s : String) : String :=
  String.ofList (trimEnd (s.toList.dropWhile isBlank))

/-- Whether a text has no character but white space. -/
def isBlankText (s : String) : Bool :=
  s.toList.all isBlank

/-- Whether `part` is a run of neighbouring characters of the list. -/
def containsSlice (part : List Char) : List Char → Bool
  | [] => part.isEmpty
  | c :: rest => part.isPrefixOf (c :: rest) || containsSlice part rest

def contains (s part : String) : Bool :=
  containsSlice part.toList s.toList

theorem containsSlice_iff {part cs : List Char} :
    containsSlice part cs = true ↔ part <:+: cs := by
  induction cs with
  | nil => simp [containsSlice]
  | cons c rest ih =>
    simp only [containsSlice, Bool.or_eq_true, ih, List.isPrefixOf_iff_prefix]
    exact List.infix_cons_iff.symm

def hexValue? (c : Char) : Option Nat :=
  let n := c.toNat
  if 0x30 ≤ n ∧ n ≤ 0x39 then some (n - 0x30)
  else if 0x41 ≤ n ∧ n ≤ 0x46 then some (n - 0x37)
  else if 0x61 ≤ n ∧ n ≤ 0x66 then some (n - 0x57)
  else none

/-- The number that hexadecimal digits stand for after the number `n`. -/
def hexNumberFrom? (n : Nat) : List Char → Option Nat
  | [] => some n
  | d :: ds =>
    match hexValue? d with
    | some value => hexNumberFrom? (16 * n + value) ds
    | none => none

def hexNumber? (ds : List Char) : Option Nat :=
  hexNumberFrom? 0 ds

/-- The one or two UTF-16 code units of a character. -/
def charUnits (c : Char) : List Nat :=
  let n := c.toNat
  if n < 0x10000 then [n]
  else [0xD800 + (n - 0x10000) / 0x400, 0xDC00 + (n - 0x10000) % 0x400]

def units (s : String) : List Nat :=
  s.toList.flatMap charUnits

/-- Whether a list of numbers comes first in the order of a dictionary, or the two are equal. -/
def precedes : List Nat → List Nat → Bool
  | [], _ => true
  | _ :: _, [] => false
  | x :: xs, y :: ys => x < y || (x == y && precedes xs ys)

/-- The two texts with the one that is smaller in UTF-16 order first. -/
def unitSorted (a b : String) : String × String :=
  if precedes (units a) (units b) then (a, b) else (b, a)

end Datamodel.Text
