import LogicalPlan.Text.SmallLetter
import LogicalPlan.Text.CaseContext

/-!
# Letter case

Texts in small letters and, as far as ASCII letters are concerned, in capitals. Two letters need
more than a mapping of characters: the dotted capital I becomes two characters, and the capital
sigma at the end of a word becomes the final sigma.
-/

namespace LogicalPlan

namespace LetterCase

/-- The first character that counts is cased. -/
def startsCased : List Char → Bool
  | [] => false
  | c :: cs => if isIgnorable c then startsCased cs else isCased c

/-- The characters in small letters, given whether the last character before them that counts is
cased. -/
def lowerAfter (cased : Bool) : List Char → List Char
  | [] => []
  | c :: cs =>
    let rest := lowerAfter (if isIgnorable c then cased else isCased c) cs
    if c = 'Σ' then (if cased && !startsCased cs then 'ς' else 'σ') :: rest
    else if c = 'İ' then 'i' :: '\u0307' :: rest
    else small c :: rest

/-- The capital letter of a character among those whose capital is an ASCII letter. -/
def upper (c : Char) : Char :=
  if 97 ≤ c.toNat && c.toNat ≤ 122 then Char.ofNat (c.toNat - 32)
  else if c = 'ſ' then 'S'
  else if c = 'ı' then 'I'
  else c

end LetterCase

/-- The text in small letters. -/
def lowerText (s : String) : String :=
  String.ofList (LetterCase.lowerAfter false s.toList)

/-- The text with its ASCII letters, and those that stand for them, in capitals. -/
def upperText (s : String) : String :=
  String.ofList (s.toList.map LetterCase.upper)

end LogicalPlan
