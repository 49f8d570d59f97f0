import DocQuery.Relation.Words

namespace DocQuery.Words

/-- Whether a word ends in some letters, be they capitals or not. -/
def EndsIn (ending : List Char) (word : String) : Prop :=
  ending <:+ (Text.asciiLowercase word).toList

private theorem toList_asciiLowercase (word : String) :
    (Text.asciiLowercase word).toList = word.toList.map Char.toLower := String.toList_ofList

private theorem endsInOne_iff {endings : List String} {word : String} :
    Text.endsInOne endings (Text.asciiLowercase word) = true ↔
      ∃ ending ∈ endings, EndsIn ending.toList word := by
  simp only [Text.endsInOne, List.any_eq_true, decide_eq_true_eq, EndsIn]

/-- The last letters of a word that small letters were put behind are those, and what comes before
    them is what the word ended in. -/
theorem endsIn_append_iff {front last : List Char} {word letters : String}
    (hlength : last.length = letters.toList.length)
    (hsmall : Text.asciiLowercase letters = letters) :
    EndsIn (front ++ last) (word ++ letters) ↔ EndsIn front word ∧ last = letters.toList := by
  have hletters : letters.toList.map Char.toLower = letters.toList := by
    rw [← toList_asciiLowercase, hsmall]
  rw [EndsIn, EndsIn, toList_asciiLowercase, toList_asciiLowercase,
    String.toList_append, List.map_append, hletters]
  exact List.suffix_append_inj_of_length_eq hlength

/-- A word that small letters were put behind ends in them. -/
theorem endsIn_append (word : String) {letters : String}
    (hsmall : Text.asciiLowercase letters = letters) :
    EndsIn letters.toList (word ++ letters) :=
  (@endsIn_append_iff [] letters.toList word letters rfl hsmall).mpr ⟨List.nil_suffix, rfl⟩

/-- What was put behind a word in small letters may be left out of an ending. -/
theorem endsInOne_append (fronts : List String) (word : String) {letters : String}
    (hsmall : Text.asciiLowercase letters = letters) :
    Text.endsInOne (fronts.map (· ++ letters)) (Text.asciiLowercase (word ++ letters)) =
      Text.endsInOne fronts (Text.asciiLowercase word) := by
  have hends : ∀ front : String, EndsIn (front ++ letters).toList (word ++ letters) ↔
      EndsIn front.toList word := by
    intro front
    rw [String.toList_append, endsIn_append_iff rfl hsmall, and_iff_left rfl]
  rw [Text.endsInOne, Text.endsInOne, List.any_map]
  exact congrArg (List.any fronts) (funext fun front => decide_eq_decide.mpr (hends front))

private theorem EndsIn.length_le {ending : List Char} {word : String} (hends : EndsIn ending word) :
    ending.length ≤ word.toList.length := by
  have hle := List.IsSuffix.length_le hends
  rwa [toList_asciiLowercase, List.length_map] at hle

/-- A longer ending tells the shorter ones. -/
theorem EndsIn.iff_suffix {ending longer : List Char} {word : String} (hlonger : EndsIn longer word)
    (hle : ending.length ≤ longer.length) : EndsIn ending word ↔ ending <:+ longer :=
  ⟨fun hends => List.suffix_of_suffix_length_le hends hlonger hle,
    fun hsuffix => hsuffix.trans hlonger⟩

/-- A word comes apart before its ending. -/
theorem EndsIn.exists_stem {ending : List Char} {word : String} (hends : EndsIn ending word) :
    ∃ stem letters, word = stem ++ letters ∧ letters.toList.map Char.toLower = ending := by
  obtain ⟨before, hbefore⟩ := hends
  rw [toList_asciiLowercase] at hbefore
  obtain ⟨stem, letters, hword, -, hletters⟩ := List.map_eq_append_iff.mp hbefore.symm
  refine ⟨String.ofList stem, String.ofList letters, ?_, by rwa [String.toList_ofList]⟩
  rw [← String.ofList_append, ← hword, String.ofList_toList]

private theorem dropLetters_append (stem letters : String) :
    dropLetters letters.toList.length (stem ++ letters) = stem := by
  rw [dropLetters, String.toList_append, List.length_append, Nat.add_sub_cancel, List.take_left,
    String.ofList_toList]

/-- A word looks plural by an `s` behind none of `s`, `u` and `i`. -/
theorem looksPlural_iff {word : String} :
    looksPlural (Text.asciiLowercase word) = true ↔
      EndsIn ['s'] word ∧ ¬ EndsIn ['s', 's'] word ∧ ¬ EndsIn ['u', 's'] word ∧
      ¬ EndsIn ['i', 's'] word := by
  rw [looksPlural, Bool.and_eq_true, Bool.not_eq_true', ← Bool.not_eq_true,
    endsInOne_iff, endsInOne_iff]
  simp

private theorem length_dropLetters (count : Nat) (word : String) :
    (dropLetters count word).toList.length = word.toList.length - count := by
  rw [dropLetters, String.toList_ofList, List.length_take]
  omega

/-- A word that ends in `y` after a consonant ends in `y`, and is longer. -/
theorem exists_stem_of_endsInConsonantY {word : String}
    (hy : endsInConsonantY (Text.asciiLowercase word) = true) :
    EndsIn ['y'] word ∧ 1 < word.toList.length := by
  unfold endsInConsonantY at hy
  split at hy
  · next c rest hreverse =>
    have hchars : (Text.asciiLowercase word).toList = rest.reverse ++ [c] ++ ['y'] := by
      rw [← List.reverse_reverse (Text.asciiLowercase word).toList, hreverse]
      simp
    have hlength := congrArg List.length hchars
    rw [toList_asciiLowercase, List.length_map] at hlength
    refine ⟨⟨_, hchars.symm⟩, ?_⟩
    simp only [List.length_append, List.length_singleton] at hlength
    omega
  · cases hy

/-- Whether the ending of a word can be told from its plural. The plurals of `is`, `us`, `i`, `u`,
    `ie` and of a hissing sound with an `e` look like those of other words (`axe` like `ax`, `movie`
    like `movy`), and a capital `Y` comes back small. Of words in `ie` the plural of two letters is
    too short to mislead. -/
structure IsRegular (word : String) : Prop where
  plain : Text.endsInOne ["is", "us", "i", "u", "sse", "xe", "ze", "che", "she"]
    (Text.asciiLowercase word) = false
  longer : Text.endsInOne ["ie"] (Text.asciiLowercase word) = true → word.utf8ByteSize ≤ 2
  small : endsInConsonantY (Text.asciiLowercase word) = true → Text.endsInOne ["y"] word = true

private theorem looksPlural_of_endsIn {word : String} (hends : EndsIn ['e', 's'] word) :
    looksPlural (Text.asciiLowercase word) = true := by
  rw [looksPlural_iff, hends.iff_suffix (by decide), hends.iff_suffix (by decide),
    hends.iff_suffix (by decide), hends.iff_suffix (by decide)]
  decide

private theorem IsRegular.not_endsIn {word : String} (hregular : IsRegular word) {ending : String}
    (hmem : ending ∈ ["is", "us", "i", "u", "sse", "xe", "ze", "che", "she"]) :
    ¬ EndsIn ending.toList word := by
  intro hends
  have hone := endsInOne_iff.mpr ⟨ending, hmem, hends⟩
  rw [hregular.plain] at hone
  cases hone

/-- A word that ends in `es` has a shorter singular. -/
theorem length_singularize_lt {word : String} (hends : EndsIn ['e', 's'] word) :
    (singularize word).toList.length < word.toList.length := by
  have hlong : 2 ≤ word.toList.length := hends.length_le
  unfold singularize
  simp only [looksPlural_of_endsIn hends, if_true]
  split
  · have hy : "y".toList.length = 1 := rfl
    rw [String.toList_append, List.length_append, length_dropLetters, hy]
    omega
  · split
    · rw [length_dropLetters]
      omega
    · rw [length_dropLetters]
      omega

private theorem asciiLowercase_s : Text.asciiLowercase "s" = "s" := by decide

private theorem asciiLowercase_es : Text.asciiLowercase "es" = "es" := by decide

/-- The singular of a word with an `s` behind it takes the `s` off, unless it is taken for part of a
    longer ending. -/
theorem singularize_add_s (word : String) :
    singularize (word ++ "s") =
      if Text.endsInOne ["ie"] (Text.asciiLowercase word) && decide (2 < word.utf8ByteSize) then
        dropLetters 3 (word ++ "s") ++ "y"
      else if Text.endsInOne ["sse", "xe", "ze", "che", "she"] (Text.asciiLowercase word) then
        dropLetters 2 (word ++ "s")
      else if Text.endsInOne ["s", "u", "i"] (Text.asciiLowercase word) then word ++ "s"
      else word := by
  have hies := endsInOne_append ["ie"] word asciiLowercase_s
  have hes := endsInOne_append ["sse", "xe", "ze", "che", "she"] word asciiLowercase_s
  have hs := endsInOne_append [""] word asciiLowercase_s
  have hother := endsInOne_append ["s", "u", "i"] word asciiLowercase_s
  have hsize : decide (3 < (word ++ "s").utf8ByteSize) = decide (2 < word.utf8ByteSize) := by
    rw [String.utf8ByteSize_append, decide_eq_decide]
    exact Nat.succ_lt_succ_iff
  have hdrop : dropLetters 1 (word ++ "s") = word := dropLetters_append word "s"
  simp only [List.map_cons, List.map_nil, String.reduceAppend] at hies hes hs hother
  unfold singularize looksPlural
  simp only [hies, hes, hs, hother, hsize, hdrop]
  have hany : Text.endsInOne [""] (Text.asciiLowercase word) = true :=
    endsInOne_iff.mpr ⟨"", List.mem_singleton_self _, List.nil_suffix⟩
  rw [hany, Bool.true_and]
  cases Text.endsInOne ["s", "u", "i"] (Text.asciiLowercase word) <;> rfl

private theorem endsIn_add_es (word : String) : EndsIn ['e', 's'] (word ++ "es") :=
  endsIn_append word asciiLowercase_es

/-- The singular of a word with `es` behind it is the word where it ends in a sound that asks for
    `es`. -/
theorem singularize_add_es {word : String}
    (hi : Text.endsInOne ["i"] (Text.asciiLowercase word) = false) :
    singularize (word ++ "es") =
      if Text.endsInOne ["ss", "x", "z", "ch", "sh"] (Text.asciiLowercase word)
        then word else word ++ "e" := by
  have hies := endsInOne_append ["i"] word asciiLowercase_es
  have hes := endsInOne_append ["ss", "x", "z", "ch", "sh"] word asciiLowercase_es
  have hdrop : dropLetters 2 (word ++ "es") = word := dropLetters_append word "es"
  have hlast : dropLetters 1 (word ++ "es") = word ++ "e" := by
    have hsplit : word ++ "es" = word ++ "e" ++ "s" := by rw [String.append_assoc]; rfl
    rw [hsplit]
    exact dropLetters_append (word ++ "e") "s"
  simp only [List.map_cons, List.map_nil, String.reduceAppend] at hies hes
  unfold singularize
  simp only [hies, hi, hes, hdrop, hlast,
    looksPlural_of_endsIn (endsIn_add_es word), Bool.false_and,
    Bool.false_eq_true, if_false, if_true]

/-- The singular of a word with `ies` behind it has a `y` there. -/
theorem singularize_add_ies {word : String} (hne : word ≠ "") :
    singularize (word ++ "ies") = word ++ "y" := by
  have hies : Text.endsInOne ["ies"] (Text.asciiLowercase (word ++ "ies")) = true :=
    endsInOne_iff.mpr ⟨"ies", List.mem_singleton_self _, endsIn_append word (by decide)⟩
  have hsize : 3 < (word ++ "ies").utf8ByteSize := by
    have hpos : word.utf8ByteSize ≠ 0 := by simpa [String.utf8ByteSize_eq_zero_iff] using hne
    have hthree : "ies".utf8ByteSize = 3 := by decide
    rw [String.utf8ByteSize_append, hthree]
    omega
  have hdrop : dropLetters 3 (word ++ "ies") = word := dropLetters_append word "ies"
  unfold singularize
  simp only [hies, hsize, hdrop, decide_true, Bool.and_self, if_true]

/-- Of two endings of a word one is an ending of the other. -/
theorem endsInOne_eq_false_of {endings others : List String} {word : String}
    (hapart : ∀ ending ∈ endings, ∀ other ∈ others,
      ¬ (other.toList <:+ ending.toList ∨ ending.toList <:+ other.toList))
    (hends : Text.endsInOne endings (Text.asciiLowercase word) = true) :
    Text.endsInOne others (Text.asciiLowercase word) = false := by
  refine Bool.eq_false_iff.mpr fun hone => ?_
  obtain ⟨ending, hending, hends⟩ := endsInOne_iff.mp hends
  obtain ⟨other, hother, hends'⟩ := endsInOne_iff.mp hone
  exact hapart ending hending other hother (List.suffix_or_suffix_of_suffix hends' hends)

/-- A word with an ending that asks for `es` is regular. -/
theorem isRegular_of_sound {word : String}
    (hsound : Text.endsInOne ["ss", "x", "z", "ch", "sh"] (Text.asciiLowercase word) = true) :
    IsRegular word := by
  refine ⟨endsInOne_eq_false_of (by decide) hsound, fun hie => ?_, fun hy => ?_⟩
  · rw [endsInOne_eq_false_of (by decide) hsound] at hie
    cases hie
  · have hends : Text.endsInOne ["y"] (Text.asciiLowercase word) = true :=
      endsInOne_iff.mpr ⟨"y", List.mem_singleton_self _, (exists_stem_of_endsInConsonantY hy).1⟩
    rw [endsInOne_eq_false_of (by decide) hsound] at hends
    cases hends

/-- A word in `is` is not what its plural leads back to. -/
theorem singularize_pluralize_of_is {word : String} (hends : EndsIn ['i', 's'] word) :
    singularize (dropLetters 2 word ++ "es") ≠ word := by
  obtain ⟨stem, letters, rfl, hletters⟩ := hends.exists_stem
  have hcount : letters.toList.length = 2 := by rw [← List.length_map, hletters]; rfl
  have hdrop : dropLetters 2 (stem ++ letters) = stem := hcount ▸ dropLetters_append stem letters
  have hlt := length_singularize_lt (endsIn_add_es stem)
  rw [hdrop]
  intro heq
  rw [heq, String.toList_append, String.toList_append, List.length_append,
    List.length_append, hcount] at hlt
  exact Nat.lt_irrefl _ hlt

/-- A word in `y` after a consonant is what its plural leads back to, unless the `y` is a
    capital. -/
theorem singularize_pluralize_of_y {word : String}
    (hy : endsInConsonantY (Text.asciiLowercase word) = true) :
    singularize (dropLetters 1 word ++ "ies") = word ↔ IsRegular word := by
  obtain ⟨hends, hlonger⟩ := exists_stem_of_endsInConsonantY hy
  obtain ⟨stem, letters, rfl, hletters⟩ := hends.exists_stem
  have hcount : letters.toList.length = 1 := by rw [← List.length_map, hletters]; rfl
  have hdrop : dropLetters 1 (stem ++ letters) = stem := hcount ▸ dropLetters_append stem letters
  have hne : stem ≠ "" := by
    rintro rfl
    rw [String.empty_append, hcount] at hlonger
    exact Nat.lt_irrefl _ hlonger
  obtain ⟨c, hc⟩ := List.length_eq_one_iff.mp hcount
  have hones : Text.endsInOne ["y"] (Text.asciiLowercase (stem ++ letters)) = true :=
    endsInOne_iff.mpr ⟨"y", List.mem_singleton_self _, hends⟩
  have hlast : Text.endsInOne ["y"] (stem ++ letters) = true ↔ "y" = letters := by
    have hy : "y".toList = ['y'] := rfl
    simp only [Text.endsInOne, List.any_cons, List.any_nil, Bool.or_false, decide_eq_true_eq,
      String.toList_append, ← String.toList_inj, hc, hy]
    have happend := @List.suffix_append_inj_of_length_eq Char [] stem.toList ['y'] [c] rfl
    rwa [List.nil_append, and_iff_right List.nil_suffix] at happend
  rw [hdrop, singularize_add_ies hne, String.append_right_inj, ← hlast]
  refine ⟨fun hsmall =>
    ⟨endsInOne_eq_false_of (by decide) hones, fun hie => ?_, fun _ => hsmall⟩,
    fun hregular => hregular.small hy⟩
  rw [endsInOne_eq_false_of (by decide) hones] at hie
  cases hie

/-- A word that takes `es` is what its plural leads back to, unless it ends in `us`. -/
theorem singularize_pluralize_of_es {word : String}
    (hkept : ¬ looksPlural (Text.asciiLowercase word) = true) (his : ¬ EndsIn ['i', 's'] word)
    (hes : Text.endsInOne ["s", "x", "z", "ch", "sh"] (Text.asciiLowercase word) = true) :
    singularize (word ++ "es") = word ↔ IsRegular word := by
  rw [singularize_add_es (endsInOne_eq_false_of (by decide) hes)]
  split
  · next hsound => exact iff_of_true rfl (isRegular_of_sound hsound)
  · next hsound =>
    refine iff_of_false (fun heq => ?_) fun hregular => ?_
    · have hlength := congrArg (fun s : String => s.toList.length) heq
      simp at hlength
    · have hss : ¬ EndsIn ['s', 's'] word :=
        fun hends => hsound (endsInOne_iff.mpr ⟨"ss", by decide, hends⟩)
      obtain ⟨ending, hmem, hends⟩ := endsInOne_iff.mp hes
      rcases List.mem_cons.mp hmem with rfl | hrest
      · exact hkept
          (looksPlural_iff.mpr ⟨hends, hss, hregular.not_endsIn (by decide : "us" ∈ _), his⟩)
      · exact hsound (endsInOne_iff.mpr ⟨ending, List.mem_cons_of_mem _ hrest, hends⟩)

/-- A word that takes an `s` alone is regular where the two are not taken together for part of a
    longer ending. -/
theorem isRegular_iff_of_s {word : String}
    (hy : ¬ endsInConsonantY (Text.asciiLowercase word) = true)
    (hes : ¬ Text.endsInOne ["s", "x", "z", "ch", "sh"] (Text.asciiLowercase word) = true) :
    IsRegular word ↔
      ¬ (Text.endsInOne ["ie"] (Text.asciiLowercase word) &&
        decide (2 < word.utf8ByteSize)) = true ∧
      ¬ Text.endsInOne ["sse", "xe", "ze", "che", "she"] (Text.asciiLowercase word) = true ∧
      ¬ Text.endsInOne ["s", "u", "i"] (Text.asciiLowercase word) = true := by
  have hs : ¬ EndsIn ['s'] word := fun hends => hes (endsInOne_iff.mpr ⟨"s", by decide, hends⟩)
  constructor
  · intro hregular
    refine ⟨fun hie => ?_, fun hsse => ?_, fun hvowel => ?_⟩
    · rw [Bool.and_eq_true, decide_eq_true_eq] at hie
      exact Nat.not_le_of_lt hie.2 (hregular.longer hie.1)
    · obtain ⟨ending, hmem, hends⟩ := endsInOne_iff.mp hsse
      exact hregular.not_endsIn (List.mem_append_right ["is", "us", "i", "u"] hmem) hends
    · obtain ⟨ending, hmem, hends⟩ := endsInOne_iff.mp hvowel
      rcases List.mem_cons.mp hmem with rfl | hmem
      · exact hs hends
      · exact hregular.not_endsIn ((by decide : ["u", "i"] ⊆ _) hmem) hends
  · rintro ⟨hie, hsse, hvowel⟩
    refine ⟨Bool.eq_false_iff.mpr fun hone => ?_, fun hie' => ?_, fun hy' => absurd hy' hy⟩
    · obtain ⟨ending, hmem, hends⟩ := endsInOne_iff.mp hone
      have hcases : ∀ ending ∈ ["is", "us", "i", "u", "sse", "xe", "ze", "che", "she"],
          ['s'] <:+ ending.toList ∨ ending ∈ ["s", "u", "i"] ∨
          ending ∈ ["sse", "xe", "ze", "che", "she"] := by
        decide
      rcases hcases ending hmem with hsuffix | hmem | hmem
      · exact hs (hsuffix.trans hends)
      · exact hvowel (endsInOne_iff.mpr ⟨ending, hmem, hends⟩)
      · exact hsse (endsInOne_iff.mpr ⟨ending, hmem, hends⟩)
    · rw [hie', Bool.true_and, decide_eq_true_eq] at hie
      exact Nat.le_of_not_lt hie

private theorem length_of_endsInOne {endings : List String} {word : String}
    (hlong : ∀ ending ∈ endings, 2 ≤ ending.toList.length)
    (hends : Text.endsInOne endings (Text.asciiLowercase word) = true) :
    2 ≤ word.toList.length := by
  obtain ⟨ending, hmem, hends⟩ := endsInOne_iff.mp hends
  exact Nat.le_trans (hlong ending hmem) hends.length_le

/-- A word that takes an `s` alone is what its plural leads back to exactly where it is regular. -/
theorem singularize_pluralize_of_s {word : String}
    (hy : ¬ endsInConsonantY (Text.asciiLowercase word) = true)
    (hes : ¬ Text.endsInOne ["s", "x", "z", "ch", "sh"] (Text.asciiLowercase word) = true) :
    singularize (word ++ "s") = word ↔ IsRegular word := by
  have hlonger : (word ++ "s").toList.length = word.toList.length + 1 := by
    rw [String.toList_append, List.length_append]
    rfl
  have hlength : ∀ {other : String}, other = word → other.toList.length = word.toList.length :=
    fun heq => heq ▸ rfl
  rw [isRegular_iff_of_s hy hes, singularize_add_s]
  -- where a longer ending is seen, what is left is shorter than the word
  split
  · next hie =>
    refine iff_of_false (fun heq => ?_) fun hnot => hnot.1 hie
    have htwo := length_of_endsInOne (by decide) (Bool.and_eq_true_iff.mp hie).1
    have hsame := hlength heq
    have hy : "y".toList.length = 1 := rfl
    rw [String.toList_append, List.length_append, length_dropLetters, hlonger, hy] at hsame
    omega
  · next hie =>
    split
    · next hsse =>
      refine iff_of_false (fun heq => ?_) fun hnot => hnot.2.1 hsse
      have htwo := length_of_endsInOne (by decide) hsse
      have hsame := hlength heq
      rw [length_dropLetters, hlonger] at hsame
      omega
    · next hsse =>
      split
      · next hvowel =>
        refine iff_of_false (fun heq => ?_) fun hnot => hnot.2.2 hvowel
        have hsame := hlength heq
        omega
      · next hvowel => exact iff_of_true rfl ⟨hie, hsse, hvowel⟩

/-- The plural of a word that has one leads back to the word exactly where the word is regular. -/
theorem singularize_pluralize_iff {word : String} (hplural : pluralize word ≠ word) :
    singularize (pluralize word) = word ↔ IsRegular word := by
  unfold pluralize at hplural ⊢
  simp only at hplural ⊢
  split at hplural
  · exact absurd rfl hplural
  · next hkept =>
    rw [if_neg hkept]
    split
    · next his =>
      obtain ⟨ending, hmem, hends⟩ := endsInOne_iff.mp his
      obtain rfl := List.mem_singleton.mp hmem
      exact iff_of_false (singularize_pluralize_of_is hends) fun hregular =>
        hregular.not_endsIn (by decide) hends
    · next his =>
      split
      · next hy => exact singularize_pluralize_of_y hy
      · next hy =>
        split
        · next hes =>
          exact singularize_pluralize_of_es hkept
            (fun hends => his (endsInOne_iff.mpr ⟨"is", List.mem_singleton_self _, hends⟩)) hes
        · next hes => exact singularize_pluralize_of_s hy hes

/-- What a word gets for its plural is an `s`, alone or in `es`. -/
theorem pluralize_cases {word : String} (hplural : pluralize word ≠ word) :
    (∃ stem, pluralize word = stem ++ "es") ∨ pluralize word = word ++ "s" := by
  unfold pluralize at hplural ⊢
  simp only at hplural ⊢
  split at hplural
  · exact absurd rfl hplural
  · next hkept =>
    rw [if_neg hkept]
    split
    · exact .inl ⟨_, rfl⟩
    · split
      · refine .inl ⟨dropLetters 1 word ++ "i", ?_⟩
        rw [String.append_assoc]
        rfl
      · split
        · exact .inl ⟨word, rfl⟩
        · exact .inr rfl

end DocQuery.Words
