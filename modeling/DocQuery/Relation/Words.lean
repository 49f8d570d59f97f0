import DocQuery.Text.Pieces

namespace DocQuery.Words

/-- Whether a word in small letters looks plural: it ends in `s`, but not in `ss`, `us` or `is`. -/
def looksPlural (lower : String) : Bool :=
  Text.endsInOne ["s"] lower && !Text.endsInOne ["ss", "us", "is"] lower

/-- The word without a number of characters at its end. -/
def dropLetters (count : Nat) (word : String) : String :=
  String.ofList (word.toList.take (word.toList.length - count))

/-- Whether a word ends in `y` after a character that is not a vowel. -/
def endsInConsonantY (lower : String) : Bool :=
  match lower.toList.reverse with
  | 'y' :: c :: _ => decide (c ∉ ['a', 'e', 'i', 'o', 'u'])
  | _ => false

/-- The plural of a word. A word that looks plural stays as it is. Its ending is told without regard
    to ASCII case, and what stays of the word keeps its letters. -/
def pluralize (word : String) : String :=
  let lower := Text.asciiLowercase word
  if looksPlural lower then word
  else if Text.endsInOne ["is"] lower then dropLetters 2 word ++ "es"
  else if endsInConsonantY lower then dropLetters 1 word ++ "ies"
  else if Text.endsInOne ["s", "x", "z", "ch", "sh"] lower then word ++ "es"
  else word ++ "s"

/-- The singular of a word: what `pluralize` added to a regular noun is taken off. -/
def singularize (word : String) : String :=
  let lower := Text.asciiLowercase word
  if Text.endsInOne ["ies"] lower && 3 < word.utf8ByteSize then dropLetters 3 word ++ "y"
  else if Text.endsInOne ["sses", "xes", "zes", "ches", "shes"] lower then dropLetters 2 word
  else if looksPlural lower then dropLetters 1 word
  else word

end DocQuery.Words
