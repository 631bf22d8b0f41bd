import WorkspaceLint.Naming.Style

/-!
# Words in a name

Where the underscores of a snake_case form come from. Two passes insert them, and the second reads what the first has written;
together they put one before each position at which a word starts in the name as it was given, and nowhere else
(`snakeCase_eq_divided`). Neither pass loses a word when the search for the next match goes on behind the last one, since no
character of a match but its first starts another.
-/

namespace WorkspaceLint.Naming

/-- A word starts at a position of a text: a capital stands there, and before it a small letter or a digit, or before it a capital
and after it a small letter. -/
def startsWord (s : List Char) : Nat → Bool
  | 0 => false
  | i + 1 =>
    s[i + 1]?.any isCapital &&
      (s[i]?.any (fun a => isSmall a || Number.isDigit a) || s[i]?.any isCapital && s[i + 2]?.any isSmall)

/-- A text with an underscore before each position at which a word starts in it. -/
def divided (s : List Char) : List Char := s.zipIdx.flatMap fun (c, i) => if startsWord s i then ['_', c] else [c]

/-- A text with an underscore after the first character of each match of a pattern. The pattern says whether a text starts with a
match, which then has `width` characters; the search goes from left to right, and behind each match it goes on. The first `skip`
characters belong to a match that was found before. -/
def underscoreMatches (width : Nat) (startsMatch : List Char → Bool) : (skip : Nat) → List Char → List Char
  | _, [] => []
  | skip + 1, c :: rest => c :: underscoreMatches width startsMatch skip rest
  | 0, c :: rest =>
    if startsMatch (c :: rest) then c :: '_' :: underscoreMatches width startsMatch (width - 1) rest
    else c :: underscoreMatches width startsMatch 0 rest

/-- A text starts with a small letter or a digit and a capital. -/
def startsAtCapital : List Char → Bool
  | a :: b :: _ => (isSmall a || Number.isDigit a) && isCapital b
  | _ => false

/-- A text starts with two capitals and a small letter. -/
def startsAtAcronym : List Char → Bool
  | a :: b :: c :: _ => isCapital a && isCapital b && isSmall c
  | _ => false

/-! ## Classes of characters -/

/-- A capital is neither a small letter nor a digit. -/
theorem not_isSmall_of_isCapital {c : Char} (h : isCapital c = true) : (isSmall c || Number.isDigit c) = false := by
  simp only [isCapital, isSmall, Number.isDigit, Char.le_def, UInt32.le_iff_toNat_le, Bool.and_eq_true, Bool.or_eq_false_iff,
    Bool.and_eq_false_iff, decide_eq_true_eq, decide_eq_false_iff_not, Char.reduceVal, UInt32.reduceToNat] at h ⊢
  omega

theorem isCapital_eq_false {c : Char} (h : (isSmall c || Number.isDigit c) = true) : isCapital c = false := by
  cases hc : isCapital c with
  | false => rfl
  | true =>
    rw [not_isSmall_of_isCapital hc] at h
    nomatch h

theorem isCapital_of_isSmall {c : Char} (h : isSmall c = true) : isCapital c = false :=
  isCapital_eq_false (by rw [h, Bool.true_or])

/-! ## One step of both passes -/

/-- An underscore, when a condition holds. -/
def underscoreIf (condition : Bool) : List Char := if condition then ['_'] else []

theorem splitAtCapitals_cons (a b : Char) (rest : List Char) :
    splitAtCapitals (a :: b :: rest) =
      a :: (underscoreIf ((isSmall a || Number.isDigit a) && isCapital b) ++ splitAtCapitals (b :: rest)) := by
  rw [splitAtCapitals, underscoreIf]
  split
  · rfl
  · rfl

theorem splitAcronyms_cons (a b : Char) (rest : List Char) :
    splitAcronyms (a :: b :: rest) =
      a :: (underscoreIf (isCapital a && isCapital b && rest.head?.any isSmall) ++ splitAcronyms (b :: rest)) := by
  cases rest with
  | nil => simp [splitAcronyms, underscoreIf]
  | cons c rest =>
    rw [splitAcronyms, underscoreIf, List.head?_cons, Option.any_some]
    split
    · rfl
    · rfl

/-- The first pass keeps the first character, and does not write anything behind it when it is a capital. -/
theorem exists_splitAtCapitals_cons (b : Char) (rest : List Char) :
    ∃ t, splitAtCapitals (b :: rest) = b :: t ∧ (isCapital b = true → t.head? = rest.head?) := by
  cases rest with
  | nil => exact ⟨[], rfl, fun _ => rfl⟩
  | cons c rest =>
    refine ⟨_, splitAtCapitals_cons b c rest, fun hb => ?_⟩
    obtain ⟨t, ht, -⟩ : ∃ t, splitAtCapitals (c :: rest) = c :: t ∧ _ := exists_splitAtCapitals_cons c rest
    rw [not_isSmall_of_isCapital hb, ht]
    rfl

/-- Both passes together look at a character, the one before it and the one after it, as they stand in the text that was given. -/
theorem splitAcronyms_splitAtCapitals_cons (a b : Char) (rest : List Char) :
    splitAcronyms (splitAtCapitals (a :: b :: rest)) =
      a :: (underscoreIf (isCapital b && (isSmall a || Number.isDigit a || isCapital a && rest.head?.any isSmall)) ++
        splitAcronyms (splitAtCapitals (b :: rest))) := by
  obtain ⟨t, ht, hhead⟩ := exists_splitAtCapitals_cons b rest
  rw [splitAtCapitals_cons, ht]
  cases hword : (isSmall a || Number.isDigit a) && isCapital b with
  | true =>
    obtain ⟨ha, hb⟩ := Bool.and_eq_true_iff.1 hword
    have hunderscore : isCapital '_' = false := by decide
    simp [underscoreIf, splitAcronyms_cons, isCapital_eq_false ha, ha, hb, hunderscore]
  | false =>
    cases hb : isCapital b with
    | false => simp [underscoreIf, splitAcronyms_cons, hb]
    | true =>
      rw [hb, Bool.and_true] at hword
      simp [underscoreIf, splitAcronyms_cons, hb, hword, hhead hb]

/-! ## Words by position -/

theorem startsWord_append (before : List Char) (a b : Char) (rest : List Char) :
    startsWord (before ++ a :: b :: rest) (before.length + 1) =
      (isCapital b && (isSmall a || Number.isDigit a || isCapital a && rest.head?.any isSmall)) := by
  have hat : ∀ k, (before ++ a :: b :: rest)[before.length + k]? = (a :: b :: rest)[k]? := fun k => by
    rw [List.getElem?_append_right (Nat.le_add_right _ _), Nat.add_sub_cancel_left]
  rw [startsWord, hat 1, hat 2, ← Nat.add_zero before.length, hat 0]
  simp [List.head?_eq_getElem?]

/-- Behind the first character of what is left of a text, both passes together put an underscore before each position at which a
word starts in the whole text. -/
theorem splitAcronyms_splitAtCapitals_eq (rest : List Char) : ∀ (before : List Char) (a : Char),
    splitAcronyms (splitAtCapitals (a :: rest)) =
      a :: (rest.zipIdx (before.length + 1)).flatMap
        fun (c, i) => if startsWord (before ++ a :: rest) i then ['_', c] else [c] := by
  induction rest with
  | nil => intro before a; rfl
  | cons b rest ih =>
    intro before a
    have hrest := ih (before ++ [a]) b
    rw [List.append_assoc, List.singleton_append, List.length_append, List.length_singleton] at hrest
    rw [splitAcronyms_splitAtCapitals_cons, hrest, List.zipIdx_cons, List.flatMap_cons]
    dsimp only
    rw [startsWord_append, underscoreIf]
    split
    · rfl
    · rfl

theorem splitAcronyms_splitAtCapitals (s : List Char) : splitAcronyms (splitAtCapitals s) = divided s := by
  cases s with
  | nil => rfl
  | cons a rest =>
    rw [splitAcronyms_splitAtCapitals_eq rest [] a, divided, List.zipIdx_cons, List.flatMap_cons]
    rfl

/-! ## Passes as substitutions -/

/-- Behind a match the search may go back over a character at which no match starts. -/
theorem underscoreMatches_succ {width skip : Nat} {startsMatch : List Char → Bool} {c : Char} {rest : List Char}
    (hc : startsMatch (c :: rest) = false)
    (hrest : underscoreMatches width startsMatch skip rest = underscoreMatches width startsMatch 0 rest) :
    underscoreMatches width startsMatch (skip + 1) (c :: rest) = underscoreMatches width startsMatch 0 (c :: rest) := by
  rw [underscoreMatches, underscoreMatches, hc, hrest]
  rfl

theorem startsAtCapital_of_isCapital {b : Char} (hb : isCapital b = true) (rest : List Char) :
    startsAtCapital (b :: rest) = false := by
  cases rest with
  | nil => rfl
  | cons c rest => rw [startsAtCapital, not_isSmall_of_isCapital hb, Bool.false_and]

theorem startsAtAcronym_of_isSmall {c : Char} (hc : isSmall c = true) (rest : List Char) : startsAtAcronym (c :: rest) = false := by
  have hno : isCapital c = false := isCapital_of_isSmall hc
  rcases rest with _ | ⟨d, _ | ⟨e, rest⟩⟩
  · rfl
  · rfl
  · rw [startsAtAcronym, hno]
    rfl

/-- The first pass is a substitution: the capital of a match starts no other one. -/
theorem underscoreMatches_startsAtCapital : ∀ s : List Char, underscoreMatches 2 startsAtCapital 0 s = splitAtCapitals s
  | [] => rfl
  | [a] => rfl
  | a :: b :: rest => by
    have ih := underscoreMatches_startsAtCapital (b :: rest)
    rw [underscoreMatches, splitAtCapitals, startsAtCapital]
    split
    · rename_i h
      have hb : isCapital b = true := (Bool.and_eq_true_iff.1 h).2
      rw [underscoreMatches_succ (startsAtCapital_of_isCapital hb rest) rfl, ih]
    · rw [ih]

/-- The second pass is a substitution: neither the second capital of a match nor its small letter starts another one. -/
theorem underscoreMatches_startsAtAcronym : ∀ s : List Char, underscoreMatches 3 startsAtAcronym 0 s = splitAcronyms s
  | [] => rfl
  | [a] => rfl
  | [a, b] => rfl
  | a :: b :: c :: rest => by
    have ih := underscoreMatches_startsAtAcronym (b :: c :: rest)
    rw [underscoreMatches, splitAcronyms, startsAtAcronym]
    split
    · rename_i h
      have hc : isSmall c = true := (Bool.and_eq_true_iff.1 h).2
      have hcap : isCapital c = false := isCapital_of_isSmall hc
      have hb : startsAtAcronym (b :: c :: rest) = false := by
        cases rest with
        | nil => rfl
        | cons d rest => rw [startsAtAcronym, hcap, Bool.and_false, Bool.false_and]
      rw [underscoreMatches_succ hb (underscoreMatches_succ (startsAtAcronym_of_isSmall hc rest) rfl), ih]
    · rw [ih]

/-- The snake_case form of a name is the lower case of the name with an underscore before each position at which a word starts in
it; and it is two substitutions, each of them from left to right and on behind its matches, that divide the name so. -/
theorem snakeCase_eq_divided (name : String) :
    snakeCase name = Text.lowered (String.ofList (divided name.toList)) ∧
      divided name.toList = underscoreMatches 3 startsAtAcronym 0 (underscoreMatches 2 startsAtCapital 0 name.toList) := by
  constructor
  · rw [snakeCase, snakeChars, splitAcronyms_splitAtCapitals, Text.lowered, String.toList_ofList]
  · rw [underscoreMatches_startsAtCapital, underscoreMatches_startsAtAcronym, splitAcronyms_splitAtCapitals]

example : snakeCase "parseHTTPResponse2XX" = "parse_http_response2_xx" := by decide +kernel

end WorkspaceLint.Naming
