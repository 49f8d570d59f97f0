import DocQuery.Text.LowercaseMap
import DocQuery.Text.CaseContext

namespace DocQuery.Text

/-- Whether a letter with case comes first, past the characters a word is read across. -/
def startsCased (cs : List Char) : Bool :=
  match cs.dropWhile isCaseIgnorable with
  | c :: _ => isCased c
  | [] => false

/-- The small form of one character between the characters before it, nearest first, and the
    characters after it: a capital sigma has one of its own at the end of a word, and the small form
    of the dotted capital I has two characters. -/
def lowercaseAt (before : List Char) (c : Char) (after : List Char) : List Char :=
  if c.toNat < 0x80 then [c.toLower]
  else if c = 'İ' then ['i', '\u0307']
  else if c = 'Σ' then [if startsCased before && !startsCased after then 'ς' else 'σ']
  else [smallLetter c]

/-- The small forms of a list of characters that come after others, given nearest first. -/
def lowercaseAfter (before : List Char) : List Char → List Char
  | [] => []
  | c :: after => lowercaseAt before c after ++ lowercaseAfter (c :: before) after

/-- A text in small letters. -/
def lowercase (s : String) : String := String.ofList (lowercaseAfter [] s.toList)

end DocQuery.Text
