import WorkspaceLint.Text.Search
import Mathlib.Data.List.Infix
import Mathlib.Data.List.TakeWhile

/-!
# Where a reader finds something

A search tries its reader at every position from the left, so text in which the reader finds nothing may stand before what is found
(`firstMatch?_append`), and what is found is what is read at the first position where anything is (`firstMatch?_eq_some_iff`). A
reader that starts with a literal finds nothing in a text that does not hold the literal, nor across the end of this text when the
last character of the literal is nowhere else in it (`afterLiteral?_before`).
-/

namespace WorkspaceLint.Text

section Search

variable {α : Type} {read : List Char → Option α} {a : α} {before s v : List Char}

theorem firstMatch?_of_read (h : read s = some a) : firstMatch? read s = some a := by
  cases s with
  | nil => exact h
  | cons c rest => rw [firstMatch?, h]

/-- Text in which a reader finds nothing may be left out at the start. -/
theorem firstMatch?_append (h : ∀ v, v ≠ [] → v <:+ before → read (v ++ s) = none) :
    firstMatch? read (before ++ s) = firstMatch? read s := by
  induction before with
  | nil => rfl
  | cons c rest ih =>
    have hhere := h (c :: rest) (by simp) (List.suffix_refl _)
    rw [List.cons_append] at hhere ⊢
    rw [firstMatch?, hhere]
    exact ih fun v hv hsuffix => h v hv (hsuffix.trans (List.suffix_cons c rest))

/-- A search finds nothing when the reader finds nothing at any position. -/
theorem firstMatch?_eq_none_iff : firstMatch? read s = none ↔ ∀ v, v <:+ s → read v = none := by
  induction s with
  | nil => simp [firstMatch?]
  | cons c rest ih =>
    simp only [List.suffix_cons_iff, forall_eq_or_imp, ← ih, firstMatch?]
    cases read (c :: rest) with
    | none => simp
    | some a => simp

/-- A search finds what the reader gives at a position before which it gives nothing. -/
theorem firstMatch?_eq_some_iff : firstMatch? read s = some a ↔
    ∃ before v, s = before ++ v ∧ read v = some a ∧ ∀ i < before.length, read (s.drop i) = none := by
  constructor
  · intro h
    induction s with
    | nil => exact ⟨[], [], rfl, h, by simp⟩
    | cons c rest ih =>
      rw [firstMatch?] at h
      split at h
      · rename_i hread
        exact ⟨[], c :: rest, rfl, hread.trans h, by simp⟩
      · rename_i hnone
        obtain ⟨before, v, hs, hread, hearlier⟩ := ih h
        refine ⟨c :: before, v, by rw [hs, List.cons_append], hread, fun i hi => ?_⟩
        cases i with
        | zero => exact hnone
        | succ i => exact hearlier i (Nat.lt_of_succ_lt_succ hi)
  · rintro ⟨before, v, rfl, hread, hearlier⟩
    rw [firstMatch?_append fun w hne hsuffix => ?_, firstMatch?_of_read hread]
    obtain ⟨start, rfl⟩ := hsuffix
    have hnone := hearlier start.length (by simpa using List.length_pos_iff.2 hne)
    rwa [List.append_assoc, List.drop_left] at hnone

end Search

section Literal

variable {literal rest s v : List Char}

theorem afterLiteral?_eq_some_iff : afterLiteral? literal s = some rest ↔ s = literal ++ rest := by
  rw [afterLiteral?]
  constructor
  · intro h
    split at h
    · rename_i hprefix
      obtain ⟨more, rfl⟩ := List.isPrefixOf_iff_prefix.1 hprefix
      simpa using h
    · nomatch h
  · rintro rfl
    simp

theorem afterLiteral?_append (literal rest : List Char) : afterLiteral? literal (literal ++ rest) = some rest :=
  afterLiteral?_eq_some_iff.2 rfl

theorem afterLiteral?_eq_none_iff : afterLiteral? literal s = none ↔ ¬literal <+: s := by
  rw [← List.isPrefixOf_iff_prefix, afterLiteral?]
  split <;> simp [*]

/-- A literal whose last character is nowhere else in it is not read from a text before it that does not hold it. -/
theorem afterLiteral?_before {word before : List Char} {last : Char} (hliteral : literal = word ++ [last]) (hlast : last ∉ word)
    (hbefore : ¬literal <:+: before) (hv : v ≠ []) (hsuffix : v <:+ before) (rest : List Char) :
    afterLiteral? literal (v ++ (literal ++ rest)) = none := by
  subst hliteral
  rw [afterLiteral?_eq_none_iff]
  rintro ⟨after, heq⟩
  have hnot : ¬(word ++ [last]) <+: v := fun h => hbefore (h.isInfix.trans hsuffix.isInfix)
  rcases List.append_eq_append_iff.1 heq with ⟨more, hmore, -⟩ | ⟨more, hmore, hrest⟩
  · exact hnot ⟨more, hmore.symm⟩
  · rcases List.eq_nil_or_concat more with rfl | ⟨start, c, rfl⟩
    · rw [List.append_nil] at hmore
      exact hnot (hmore ▸ List.prefix_refl _)
    · rw [List.concat_eq_append, ← List.append_assoc] at hmore
      obtain ⟨hword, hc⟩ := List.append_inj' hmore rfl
      obtain rfl := List.singleton_inj.1 hc
      have hshort : (start.concat last).length ≤ word.length := by
        have := List.length_pos_iff.2 hv
        rw [hword, List.length_append, List.length_concat]
        omega
      have hstarts : start.concat last <+: word :=
        List.prefix_of_prefix_length_le ⟨after, hrest.symm⟩ (by rw [List.append_assoc]; exact List.prefix_append _ _) hshort
      exact hlast (hstarts.subset (by simp))

end Literal

/-- A character that stands in none of some texts, nor in what is put between them, is not in the texts in a row. -/
theorem not_mem_intercalate {c : Char} {between : List Char} {texts : List (List Char)} (hbetween : c ∉ between)
    (h : ∀ t ∈ texts, c ∉ t) : c ∉ between.intercalate texts := by
  induction texts with
  | nil => simp
  | cons t texts ih =>
    obtain ⟨ht, htexts⟩ := List.forall_mem_cons.1 h
    cases texts with
    | nil => simpa using ht
    | cons u texts =>
      rw [List.intercalate_cons_cons]
      simp only [List.mem_append, not_or]
      exact ⟨⟨ht, hbetween⟩, ih htexts⟩

/-! ## Classes of characters -/

/-- What is left of a text without what it starts with of a class of characters does not start with one. -/
theorem of_mem_head?_dropWhile {test : Char → Bool} {s : List Char} : ∀ c ∈ (s.dropWhile test).head?, test c = false := by
  intro c hc
  have hnot := List.head?_dropWhile_not test s
  rw [Option.mem_def.1 hc] at hnot
  exact hnot

/-- What a text starts with of a class of characters ends at the first that is not of the class. -/
theorem takeWhile_append_of_head {test : Char → Bool} {before s : List Char} (hbefore : ∀ c ∈ before, test c = true)
    (hs : ∀ c ∈ s.head?, test c = false) : (before ++ s).takeWhile test = before := by
  rw [List.takeWhile_append_of_pos hbefore]
  cases s with
  | nil => simp
  | cons c rest => rw [List.takeWhile_cons_of_neg (by simp [hs c rfl]), List.append_nil]

/-- What a text starts with of a class of characters is dropped up to the first that is not of the class. -/
theorem dropWhile_append_of_head {test : Char → Bool} {before s : List Char} (hbefore : ∀ c ∈ before, test c = true)
    (hs : ∀ c ∈ s.head?, test c = false) : (before ++ s).dropWhile test = s := by
  rw [List.dropWhile_append_of_pos hbefore]
  cases s with
  | nil => rfl
  | cons c rest => rw [List.dropWhile_cons_of_neg (by simp [hs c rfl])]

/-- Blanks around a text that neither starts nor ends with one are what is taken off it. -/
theorem strip_append {before s after : List Char} (hbefore : ∀ c ∈ before, isBlank c = true) (hafter : ∀ c ∈ after, isBlank c = true)
    (hhead : ∀ c ∈ s.head?, isBlank c = false) (hlast : ∀ c ∈ s.getLast?, isBlank c = false) :
    strip (before ++ s ++ after) = s := by
  rw [strip, stripWhere]
  by_cases hs : s = []
  · subst hs
    rw [List.append_nil, ← List.append_nil (before ++ after), dropWhile_append_of_head (fun c hc => ?_) (by simp)]
    · rfl
    · exact (List.mem_append.1 hc).elim (hbefore c) (hafter c)
  · rw [List.append_assoc, dropWhile_append_of_head hbefore (by rwa [List.head?_append_of_ne_nil _ hs]), List.reverse_append,
      dropWhile_append_of_head (fun c hc => hafter c (List.mem_reverse.1 hc)) (by rwa [List.head?_reverse]), List.reverse_reverse]

end WorkspaceLint.Text
