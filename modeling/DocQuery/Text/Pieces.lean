import DocQuery.Text.Blank

namespace DocQuery.Text

/-- The pieces between the occurrences of a separator. There is one more piece than there are
    separators, so the empty text has one empty piece. -/
def split (separator : Char) (s : String) : List String :=
  (s.toList.splitOn separator).map String.ofList

/-- The pieces with a dot between neighbours. -/
def joinDots (pieces : List String) : String := ".".intercalate pieces

/-- The items of a comma list, without blanks around them. Empty items are left out. -/
def commaItems (s : String) : List String :=
  ((split ',' s).map trim).filter (· ≠ "")

/-- What stands before and after the first occurrence of a separator. -/
def cutAt? (separator : Char) (s : String) : Option (String × String) :=
  match s.toList.dropWhile (· ≠ separator) with
  | [] => none
  | _ :: rest =>
    some (String.ofList (s.toList.takeWhile (· ≠ separator)), String.ofList rest)

/-- What follows a known beginning. -/
def dropStart? (start s : String) : Option String :=
  if start.toList <+: s.toList then some (String.ofList (s.toList.drop start.toList.length))
  else none

/-- What comes before a known end. -/
def dropEnd? (ending s : String) : Option String :=
  if ending.toList <:+ s.toList then
    some (String.ofList (s.toList.take (s.toList.length - ending.toList.length)))
  else none

/-- What comes before a known end, or the whole text if it does not end so. -/
def dropEnd (ending s : String) : String := (dropEnd? ending s).getD s

/-- Whether a text ends in one of the given endings. -/
def endsInOne (endings : List String) (s : String) : Bool :=
  endings.any fun ending => decide (ending.toList <:+ s.toList)

/-- A text with its ASCII capitals made small. No other character changes. -/
def asciiLowercase (s : String) : String := String.ofList (s.toList.map Char.toLower)

/-- Whether a text occurs somewhere in another. -/
def occursIn (needle : List Char) : List Char → Bool
  | [] => needle.isEmpty
  | c :: rest => needle.isPrefixOf (c :: rest) || occursIn needle rest

/-- A text occurs in another exactly if it is a run of characters of it. -/
theorem occursIn_iff {needle cs : List Char} : occursIn needle cs = true ↔ needle <:+: cs := by
  induction cs with
  | nil => simp [occursIn]
  | cons c rest ih =>
    rw [occursIn, Bool.or_eq_true, ih, List.isPrefixOf_iff_prefix, List.infix_cons_iff]

/-- The text with every occurrence of a nonempty target replaced, from left to right. The count is
    the number of characters still covered by the occurrence before. -/
def replaceFrom (target replacement : List Char) : Nat → List Char → List Char
  | _, [] => []
  | covered + 1, _ :: rest => replaceFrom target replacement covered rest
  | 0, c :: rest =>
    if target <+: c :: rest then
      replacement ++ replaceFrom target replacement (target.length - 1) rest
    else c :: replaceFrom target replacement 0 rest

@[inherit_doc replaceFrom]
def replace (target replacement : List Char) (cs : List Char) : List Char :=
  replaceFrom target replacement 0 cs

end DocQuery.Text
