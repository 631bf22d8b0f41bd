import WorkspaceLint.Proofs.DeclaredTargets
import WorkspaceLint.Source.ExportedClass

/-!
# The first class declaration of a text

A class is declared where a text reads `export`, maybe `abstract`, and `class`, with blanks after each, and then the start of a
name. The reader finds the declaration at the first position that has one, and all of its name (`exportedClassOf?_leftmost`): a word
read as `abstract` cannot be `class`, and no word or name starts with a blank, so there is no choice to be taken back
(`exportedClassHere?_eq_some_iff`). Of what stands around the declaration only the character after the name counts, and whether there
is an earlier declaration. One that starts before another does not reach over the first letter of that one, which starts declarations
and is nowhere else in what stands before a name (`DeclaresClass.of_append`).
-/

namespace WorkspaceLint.Source

open Text (isBlank afterLiteral? afterBlanks?)

/-! ## How classes are declared -/

/-- One or more blanks. -/
structure Gap extends Blanks where
  /-- There is one. -/
  ne_nil : chars ≠ []

/-- What stands before the name where a class is declared. -/
structure ClassHead where
  /-- The blanks after `export`. -/
  afterExport : Gap
  /-- The blanks after `abstract`, if the word is there. -/
  afterAbstract : Option Gap
  /-- The blanks after `class`. -/
  afterClass : Gap

/-- The word `abstract` with its blanks, if it is there. -/
def ClassHead.abstractText (h : ClassHead) : List Char := h.afterAbstract.elim [] ("abstract".toList ++ ·.chars)

/-- The words with their blanks. -/
def ClassHead.text (h : ClassHead) : List Char :=
  "export".toList ++ (h.afterExport.chars ++ (h.abstractText ++ ("class".toList ++ h.afterClass.chars)))

/-- A text starts with the declaration of a class: at least one character of a name is there. -/
def DeclaresClass (s : List Char) : Prop :=
  ∃ (head : ClassHead) (c : Char) (rest : List Char), isNameChar c = true ∧ s = head.text ++ c :: rest

/-- A class name that ends where a text starts. -/
structure IsNameBefore (name after : List Char) : Prop where
  /-- The name is not empty. -/
  ne_nil : name ≠ []
  /-- It has characters of names only. -/
  nameChars : ∀ c ∈ name, isNameChar c = true
  /-- The text does not go on with one. -/
  stop : ∀ c ∈ after.head?, isNameChar c = false

/-- The first declaration of a class in a text, with what stands before and after it. -/
structure FirstClass (s : List Char) where
  /-- The text before the declaration. -/
  before : List Char
  /-- What stands before the name. -/
  head : ClassHead
  /-- The name. -/
  name : List Char
  /-- The text after the name. -/
  after : List Char
  /-- Together they are the text. -/
  text_eq : s = before ++ (head.text ++ (name ++ after))
  /-- The name ends where the text after it starts. -/
  isName : IsNameBefore name after
  /-- No position before has a declaration. -/
  first : ∀ i < before.length, ¬DeclaresClass (s.drop i)

/-! ## Words and blanks -/

/-- No character of a name is blank. -/
theorem not_isBlank_of_isNameChar {c : Char} (h : isNameChar c = true) : isBlank c = false := by
  unfold isNameChar at h
  rw [Bool.or_eq_true] at h
  rcases h with hletter | hunderscore
  · exact Text.Ranges.not_contains_of_isAlphanum (by decide) hletter
  · rw [beq_iff_eq.1 hunderscore]
    decide

/-- After a literal, all blanks that stand there are read, and there must be one. -/
theorem afterGap?_eq_some_iff {literal s rest : List Char} : (afterLiteral? literal s).bind afterBlanks? = some rest ↔
    (∃ gap : Gap, s = literal ++ (gap.chars ++ rest)) ∧ ∀ c ∈ rest.head?, isBlank c = false := by
  rw [Option.bind_eq_some_iff]
  constructor
  · rintro ⟨more, hmore, h⟩
    obtain rfl := Text.afterLiteral?_eq_some_iff.1 hmore
    unfold afterBlanks? at h
    split at h
    · nomatch h
    · rename_i c more
      split at h
      · rename_i hc
        cases h
        refine ⟨⟨⟨⟨c :: more.takeWhile isBlank, ?_⟩, by simp⟩, ?_⟩, Text.of_mem_head?_dropWhile⟩
        · exact List.forall_mem_cons.2 ⟨hc, fun d hd => List.mem_takeWhile_imp hd⟩
        · rw [List.cons_append, List.takeWhile_append_dropWhile]
      · nomatch h
  · rintro ⟨⟨⟨⟨blanks, hblank⟩, hne⟩, rfl⟩, hrest⟩
    refine ⟨_, Text.afterLiteral?_append _ _, ?_⟩
    cases blanks with
    | nil => exact absurd rfl hne
    | cons c blanks =>
      obtain ⟨hc, hblanks⟩ := List.forall_mem_cons.1 hblank
      show (if isBlank c then some ((blanks ++ rest).dropWhile isBlank) else none) = some rest
      rw [if_pos hc, Text.dropWhile_append_of_head hblanks hrest]

theorem afterGap?_append (literal : List Char) (gap : Gap) {rest : List Char} (hrest : ∀ c ∈ rest.head?, isBlank c = false) :
    (afterLiteral? literal (literal ++ (gap.chars ++ rest))).bind afterBlanks? = some rest :=
  afterGap?_eq_some_iff.2 ⟨⟨gap, rfl⟩, hrest⟩

/-! ## A declaration, read where it starts -/

/-- What a text starts with of the characters of a name is one if there are any. -/
theorem isNameBefore_takeWhile {s : List Char} (h : s.takeWhile isNameChar ≠ []) :
    IsNameBefore (s.takeWhile isNameChar) (s.dropWhile isNameChar) where
  ne_nil := h
  nameChars _ hc := List.mem_takeWhile_imp hc
  stop := Text.of_mem_head?_dropWhile

theorem IsNameBefore.exists_cons {name after : List Char} (h : IsNameBefore name after) :
    ∃ c rest, name = c :: rest ∧ isNameChar c = true := by
  obtain ⟨c, rest, rfl⟩ := List.exists_cons_of_ne_nil h.ne_nil
  exact ⟨c, rest, rfl, h.nameChars c List.mem_cons_self⟩

/-- The reader, with a word and the blanks after it read at once. -/
theorem exportedClassHere?_eq (s : List Char) : exportedClassHere? s =
    ((afterLiteral? "export".toList s).bind afterBlanks?).bind fun s =>
      let s := ((afterLiteral? "abstract".toList s).bind afterBlanks?).getD s
      ((afterLiteral? "class".toList s).bind afterBlanks?).bind fun s =>
        if s.takeWhile isNameChar = [] then none else some (s.takeWhile isNameChar) := by
  unfold exportedClassHere?
  simp only [Option.bind_eq_bind, Option.bind_assoc]

theorem ClassHead.text_append (h : ClassHead) (rest : List Char) : h.text ++ rest =
    "export".toList ++ (h.afterExport.chars ++ (h.abstractText ++ ("class".toList ++ (h.afterClass.chars ++ rest)))) := by
  unfold text
  rw [List.append_assoc, List.append_assoc, List.append_assoc, List.append_assoc]

/-- The word `abstract` is read if it is there, and what is left starts with `class`. -/
theorem ClassHead.after_abstractText (h : ClassHead) (rest : List Char) :
    ((afterLiteral? "abstract".toList (h.abstractText ++ ("class".toList ++ rest))).bind afterBlanks?).getD
      (h.abstractText ++ ("class".toList ++ rest)) = "class".toList ++ rest := by
  unfold abstractText
  cases h.afterAbstract with
  | none => rfl
  | some gap =>
    have hclass : ∀ c ∈ ("class".toList ++ rest).head?, isBlank c = false := by
      rintro c ⟨⟩
      decide
    rw [Option.elim_some, List.append_assoc, afterGap?_append _ gap hclass, Option.getD_some]

/-- No blank stands where `abstract` or `class` does. -/
theorem ClassHead.not_isBlank_head (h : ClassHead) (rest : List Char) :
    ∀ c ∈ (h.abstractText ++ ("class".toList ++ rest)).head?, isBlank c = false := by
  unfold abstractText
  intro c hc
  cases hword : h.afterAbstract with
  | none =>
    rw [hword] at hc
    cases hc
    decide
  | some gap =>
    rw [hword] at hc
    cases hc
    decide

/-- What is read where a class is declared is its name. Each gap is read to its end, since what stands after it starts with no blank. -/
theorem exportedClassHere?_eq_some_iff {s name : List Char} : exportedClassHere? s = some name ↔
    ∃ (head : ClassHead) (after : List Char), s = head.text ++ (name ++ after) ∧ IsNameBefore name after := by
  rw [exportedClassHere?_eq]
  constructor
  · intro h
    obtain ⟨afterExport, hexport, h⟩ := Option.bind_eq_some_iff.1 h
    obtain ⟨afterClass, hclass, h⟩ := Option.bind_eq_some_iff.1 h
    split at h
    · nomatch h
    · rename_i hne
      cases h
      obtain ⟨⟨first, rfl⟩, -⟩ := afterGap?_eq_some_iff.1 hexport
      obtain ⟨⟨last, hlast⟩, -⟩ := afterGap?_eq_some_iff.1 hclass
      have hname := isNameBefore_takeWhile hne
      cases hword : (afterLiteral? "abstract".toList afterExport).bind afterBlanks? with
      | none =>
        rw [hword, Option.getD_none] at hlast
        refine ⟨⟨first, none, last⟩, _, ?_, hname⟩
        rw [ClassHead.text_append, List.takeWhile_append_dropWhile, hlast]
        rfl
      | some afterWord =>
        rw [hword, Option.getD_some] at hlast
        obtain ⟨⟨middle, rfl⟩, -⟩ := afterGap?_eq_some_iff.1 hword
        refine ⟨⟨first, some middle, last⟩, _, ?_, hname⟩
        rw [ClassHead.text_append, List.takeWhile_append_dropWhile, hlast, ClassHead.abstractText, Option.elim_some,
          List.append_assoc]
  · rintro ⟨head, after, rfl, hname⟩
    obtain ⟨c, rest, rfl, hc⟩ := hname.exists_cons
    have hhead : ∀ d ∈ (c :: rest ++ after).head?, isBlank d = false := by
      rintro d ⟨⟩
      exact not_isBlank_of_isNameChar hc
    rw [ClassHead.text_append, afterGap?_append _ head.afterExport (head.not_isBlank_head _), Option.bind_some,
      head.after_abstractText]
    dsimp only
    rw [afterGap?_append _ head.afterClass hhead, Option.bind_some, Text.takeWhile_append_of_head hname.nameChars hname.stop,
      if_neg hname.ne_nil]

/-- Nothing is read where no class is declared. -/
theorem exportedClassHere?_eq_none_iff {s : List Char} : exportedClassHere? s = none ↔ ¬DeclaresClass s := by
  rw [Option.eq_none_iff_forall_ne_some, ← not_exists, not_iff_not]
  constructor
  · rintro ⟨name, h⟩
    obtain ⟨head, after, hs, hname⟩ := exportedClassHere?_eq_some_iff.1 h
    obtain ⟨c, rest, rfl, hc⟩ := hname.exists_cons
    exact ⟨head, c, rest ++ after, hc, hs⟩
  · rintro ⟨head, c, rest, hc, rfl⟩
    have hname : IsNameBefore ((c :: rest).takeWhile isNameChar) ((c :: rest).dropWhile isNameChar) :=
      isNameBefore_takeWhile (by simp [hc])
    exact ⟨_, exportedClassHere?_eq_some_iff.2 ⟨head, _, by rw [List.takeWhile_append_dropWhile], hname⟩⟩

/-! ## Declarations that start before another -/

/-- The first letter of a declaration is nowhere else before the name. -/
theorem ClassHead.text_eq_cons (h : ClassHead) : ∃ tail, h.text = 'e' :: tail ∧ 'e' ∉ tail := by
  have hwords : 'e' ∉ "xport".toList ∧ 'e' ∉ "abstract".toList ∧ 'e' ∉ "class".toList := by decide
  obtain ⟨hexport, habstract, hclass⟩ := hwords
  have hgap : ∀ gap : Gap, 'e' ∉ gap.chars := fun gap => gap.not_mem (by decide)
  have hmiddle : 'e' ∉ h.abstractText := by
    unfold abstractText
    cases h.afterAbstract with
    | none => exact List.not_mem_nil
    | some gap => exact List.not_mem_append habstract (hgap gap)
  have hlast : 'e' ∉ "class".toList ++ h.afterClass.chars := List.not_mem_append hclass (hgap _)
  exact ⟨"xport".toList ++ (h.afterExport.chars ++ (h.abstractText ++ ("class".toList ++ h.afterClass.chars))), rfl,
    List.not_mem_append hexport (List.not_mem_append (hgap _) (List.not_mem_append hmiddle hlast))⟩

/-- Whether a class is declared where a text starts does not depend on what follows a first letter of declarations in it. -/
theorem DeclaresClass.of_append {v rest : List Char} (hv : v ≠ []) (h : DeclaresClass (v ++ 'e' :: rest)) (more : List Char) :
    DeclaresClass (v ++ 'e' :: more) := by
  obtain ⟨head, c, tail, hc, heq⟩ := h
  rcases List.append_eq_append_iff.1 heq with ⟨start, hhead, hrest⟩ | ⟨start, rfl, hrest⟩
  · cases start with
    | nil =>
      cases hrest
      exact ⟨head, 'e', more, hc, by rw [hhead, List.append_nil]⟩
    | cons d start =>
      obtain ⟨text, htext, hnot⟩ := head.text_eq_cons
      obtain ⟨x, v, rfl⟩ := List.exists_cons_of_ne_nil hv
      cases hrest
      rw [htext, List.cons_append] at hhead
      cases hhead
      exact absurd (by simp) hnot
  · cases start with
    | nil =>
      cases hrest
      exact ⟨head, 'e', more, hc, by rw [List.append_nil]⟩
    | cons d start =>
      cases hrest
      exact ⟨head, c, start ++ 'e' :: more, hc, by simp⟩

/-! ## The first declaration -/

/-- A text has a name to be read where it has a first declaration, and this name. -/
theorem exportedClass?_eq_some_iff {s name : List Char} : exportedClass? s = some name ↔ ∃ d : FirstClass s, d.name = name := by
  unfold exportedClass?
  rw [Text.firstMatch?_eq_some_iff]
  constructor
  · rintro ⟨before, v, hs, hread, hearlier⟩
    obtain ⟨head, after, rfl, hname⟩ := exportedClassHere?_eq_some_iff.1 hread
    exact ⟨⟨before, head, name, after, hs, hname, fun i hi => exportedClassHere?_eq_none_iff.1 (hearlier i hi)⟩, rfl⟩
  · rintro ⟨d, rfl⟩
    exact ⟨d.before, _, d.text_eq, exportedClassHere?_eq_some_iff.2 ⟨d.head, d.after, rfl, d.isName⟩,
      fun i hi => exportedClassHere?_eq_none_iff.2 (d.first i hi)⟩

/-- A text has no name to be read where no position has a declaration. -/
theorem exportedClass?_eq_none_iff {s : List Char} : exportedClass? s = none ↔ ∀ i, ¬DeclaresClass (s.drop i) := by
  unfold exportedClass?
  rw [Text.firstMatch?_eq_none_iff]
  constructor
  · intro h i
    exact exportedClassHere?_eq_none_iff.1 (h _ (List.drop_suffix i s))
  · rintro h v ⟨before, rfl⟩
    have hdrop := h before.length
    rw [List.drop_left] at hdrop
    exact exportedClassHere?_eq_none_iff.2 hdrop

namespace FirstClass

variable {s : List Char} (d : FirstClass s)

/-- The text without what stands before the first declaration. -/
theorem drop_before : s.drop d.before.length = d.head.text ++ (d.name ++ d.after) := by
  have hdrop := congrArg (List.drop d.before.length) d.text_eq
  rwa [List.drop_left] at hdrop

/-- With the character that ends the name kept, the name ends there. -/
theorem isName_of_head? {after : List Char} (hafter : after.head? = d.after.head?) : IsNameBefore d.name after where
  ne_nil := d.isName.ne_nil
  nameChars := d.isName.nameChars
  stop c hc := d.isName.stop c (hafter ▸ hc)

/-- The declaration of a name is first behind a text as long as it is with what follows the name in the text it is from. -/
theorem exportedClass?_eq {before after : List Char} (hafter : after.head? = d.after.head?)
    (hfirst : ∀ i < before.length, ¬DeclaresClass ((before ++ s.drop d.before.length).drop i)) :
    exportedClass? (before ++ (d.head.text ++ (d.name ++ after))) = some d.name := by
  have hname := d.isName_of_head? hafter
  refine exportedClass?_eq_some_iff.2 ⟨⟨before, d.head, d.name, after, rfl, hname, fun i hi hdeclares => ?_⟩, rfl⟩
  obtain ⟨tail, htail, -⟩ := d.head.text_eq_cons
  have hnot := hfirst i hi
  rw [d.drop_before, htail, List.drop_append_of_le_length hi.le] at hnot
  rw [htail, List.drop_append_of_le_length hi.le] at hdeclares
  exact hnot (hdeclares.of_append (by simpa using hi) _)

end FirstClass

/-- The name of the first class that is declared in a text. There is none exactly if no position has a declaration; it is all of the
name that is declared at the first position that has one; and it stays the same behind any text with which no earlier position has
one, whatever follows the character that ends the name. -/
theorem exportedClassOf?_leftmost (source : String) :
    (exportedClassOf? source = none ↔ ∀ i, ¬DeclaresClass (source.toList.drop i)) ∧
    (∀ name, exportedClassOf? source = some name ↔ ∃ d : FirstClass source.toList, String.ofList d.name = name) ∧
    ∀ (d : FirstClass source.toList) (before after : List Char), after.head? = d.after.head? →
      (∀ i < before.length, ¬DeclaresClass ((before ++ source.toList.drop d.before.length).drop i)) →
      exportedClassOf? (String.ofList (before ++ (d.head.text ++ (d.name ++ after)))) = some (String.ofList d.name) := by
  unfold exportedClassOf?
  refine ⟨?_, fun name => ?_, fun d before after hafter hfirst => ?_⟩
  · rw [Option.map_eq_none_iff, exportedClass?_eq_none_iff]
  · rw [Option.map_eq_some_iff]
    constructor
    · rintro ⟨chars, hchars, rfl⟩
      obtain ⟨d, rfl⟩ := exportedClass?_eq_some_iff.1 hchars
      exact ⟨d, rfl⟩
    · rintro ⟨d, rfl⟩
      exact ⟨d.name, exportedClass?_eq_some_iff.2 ⟨d, rfl⟩, rfl⟩
  · rw [String.toList_ofList, d.exportedClass?_eq hafter hfirst, Option.map_some]

end WorkspaceLint.Source

namespace WorkspaceLint.ExportedClasses

open Source

/-- A gap of one blank. -/
def gap (c : Char) (h : Text.isBlank c = true) : Gap := ⟨⟨[c], List.forall_mem_singleton.2 h⟩, List.cons_ne_nil c []⟩

/-- A text whose first two tries at a declaration come to nothing. -/
def source : String := "export class = 1; export abstract export\tabstract\u3000class Ab_1-export class Z;"

/-- The declaration in it, which starts in the middle of the second try. -/
def declaration : FirstClass source.toList where
  before := "export class = 1; export abstract ".toList
  head := ⟨gap '\t' (by decide), some (gap '\u3000' (by decide)), gap ' ' (by decide)⟩
  name := "Ab_1".toList
  after := "-export class Z;".toList
  text_eq := by decide +kernel
  isName := ⟨by decide, List.all_eq_true.1 (by decide +kernel), by rintro c ⟨⟩; decide⟩
  first i hi := exportedClassHere?_eq_none_iff.1 (by revert i; decide +kernel)

end WorkspaceLint.ExportedClasses

namespace WorkspaceLint.Source

/-- The declaration is read, and it is behind another text and before another. -/
theorem exportedClassOf?_leftmost_third_try :
    exportedClassOf? ExportedClasses.source = some "Ab_1" ∧
      exportedClassOf? "reexport class; export\tabstract\u3000class Ab_1-" = some "Ab_1" := by
  constructor
  · exact ((exportedClassOf?_leftmost ExportedClasses.source).2.1 "Ab_1").2 ⟨ExportedClasses.declaration, rfl⟩
  · refine (exportedClassOf?_leftmost ExportedClasses.source).2.2 ExportedClasses.declaration "reexport class; ".toList ['-'] rfl ?_
    intro i hi
    exact exportedClassHere?_eq_none_iff.1 (by revert i; decide +kernel)

end WorkspaceLint.Source
