import Datamodel.Text.CaseTable

/-!
Lower case over all of Unicode. Every character has a lower-case form of its own except the
capital sigma U+03A3, which is written as the final sigma U+03C2 at the end of a word: after a
cased character and before none, where case-ignorable characters are passed over on both sides.
-/

namespace Datamodel.Text

/-- The lower-case form of a character that does not depend on what stands around it. -/
def lowerChar (c : Char) : List Char :=
  if c.toNat = 0x130 then ['i', Char.ofNat 0x307]
  else
    match CaseRun.find? c.toNat lowerRuns with
    | some run => [Char.ofNat (run.image c.toNat)]
    | none => [c]

def capitalSigma : Char := Char.ofNat 0x3A3

/-- The small letter sigma inside a word. -/
def smallSigma : Char := Char.ofNat 0x3C3

/-- The small letter sigma at the end of a word. -/
def finalSigma : Char := Char.ofNat 0x3C2

/-- Whether the first character that is not case-ignorable is cased. -/
def startsCased : List Char → Bool
  | [] => false
  | c :: rest => if isCaseIgnorable c then startsCased rest else isCased c

/-- The lower-case form of a character between two texts, the first of which is given from its end
backwards. -/
def lowerBetween (before : List Char) (c : Char) (after : List Char) : List Char :=
  if c = capitalSigma then
    [if startsCased before && !startsCased after then finalSigma else smallSigma]
  else lowerChar c

/-- Lower case of a text that stands behind another one, which is given from its end backwards. -/
def lowercaseAfter (before : List Char) : List Char → List Char
  | [] => []
  | c :: rest => lowerBetween before c rest ++ lowercaseAfter (c :: before) rest

def lowercase (s : String) : String :=
  String.ofList (lowercaseAfter [] s.toList)

@[simp]
theorem lowercaseAfter_nil (before : List Char) : lowercaseAfter before [] = [] :=
  rfl

@[simp]
theorem toList_lowercase (s : String) :
    (lowercase s).toList = lowercaseAfter [] s.toList := by
  simp [lowercase]

end Datamodel.Text
