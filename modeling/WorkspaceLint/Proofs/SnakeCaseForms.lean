import WorkspaceLint.Proofs.LowerCase
import WorkspaceLint.Proofs.SnakeCase

/-!
# Names that are their own snake_case form

The snake_case form of a text is in lower case, so no word starts in it and its own form is the same text; and a text is its own form
exactly when it is its own lower case (`snakeCase_fixed`).
-/

namespace WorkspaceLint.Naming

/-! ## Divided texts -/

/-- A text is divided behind its first character when a word starts there, and then as it is without that character. -/
theorem divided_cons (a b : Char) (rest : List Char) :
    divided (a :: b :: rest) =
      a :: (underscoreIf (isCapital b && (isSmall a || Number.isDigit a || isCapital a && rest.head?.any isSmall)) ++
        divided (b :: rest)) := by
  rw [← splitAcronyms_splitAtCapitals, splitAcronyms_splitAtCapitals_cons, splitAcronyms_splitAtCapitals]

/-- Between two characters a text is divided by an underscore or not at all, and only behind a letter or a digit and before a capital. -/
theorem divided_cons_cases (a b : Char) (rest : List Char) :
    divided (a :: b :: rest) = a :: divided (b :: rest) ∨
      (isAlphanumeric a = true ∧ isCapital b = true) ∧ divided (a :: b :: rest) = a :: '_' :: divided (b :: rest) := by
  rw [divided_cons, underscoreIf]
  split
  · rename_i hstarts
    rw [Bool.and_eq_true] at hstarts
    refine Or.inr ⟨⟨?_, hstarts.1⟩, rfl⟩
    unfold isAlphanumeric
    cases hcapital : isCapital a with
    | true => rfl
    | false => simpa [hcapital] using hstarts.2
  · exact Or.inl rfl

/-- The first character of a text stays where it is. -/
theorem exists_divided_cons (a : Char) (rest : List Char) : ∃ more, divided (a :: rest) = a :: more := by
  cases rest with
  | nil => exact ⟨[], rfl⟩
  | cons b rest => exact ⟨_, divided_cons a b rest⟩

/-- A divided text holds the characters of the text and underscores. -/
theorem mem_of_mem_divided {s : List Char} {c : Char} (h : c ∈ divided s) : c ∈ s ∨ c = '_' := by
  obtain ⟨⟨d, i⟩, hd, hc⟩ := List.mem_flatMap.1 h
  obtain ⟨-, -, hmem⟩ := List.mem_zipIdx hd
  have hd : d ∈ s := by
    rw [hmem]
    exact List.getElem_mem _
  dsimp only at hc
  split at hc
  · simp only [List.mem_cons, List.not_mem_nil, or_false] at hc
    rcases hc with rfl | rfl
    · exact Or.inr rfl
    · exact Or.inl hd
  · rw [List.mem_singleton.1 hc]
    exact Or.inl hd

/-- A text that is divided without an underscore is divided nowhere. -/
theorem divided_of_not_mem {s : List Char} (h : '_' ∉ divided s) : divided s = s := by
  induction s with
  | nil => rfl
  | cons a rest ih =>
    cases rest with
    | nil => rfl
    | cons b rest =>
      rcases divided_cons_cases a b rest with heq | ⟨-, heq⟩
      · rw [heq, List.mem_cons, not_or] at h
        rw [heq, ih h.2]
      · rw [heq] at h
        exact absurd (List.mem_cons_of_mem _ List.mem_cons_self) h

/-- No word starts at a dot or right behind one, and a dot says nothing about the words before it. -/
theorem divided_append_dot (s t : List Char) : divided (s ++ '.' :: t) = divided s ++ '.' :: divided t := by
  have hdot : isCapital '.' = false ∧ isSmall '.' = false ∧ Number.isDigit '.' = false := by decide
  have hbehind : divided ('.' :: t) = '.' :: divided t := by
    cases t with
    | nil => rfl
    | cons b rest => simp [divided_cons, underscoreIf, hdot]
  induction s with
  | nil => exact hbehind
  | cons a rest ih =>
    cases rest with
    | nil => simp [divided_cons, underscoreIf, hdot, hbehind, show divided [a] = [a] from rfl]
    | cons b rest =>
      have hhead : (rest ++ '.' :: t).head?.any isSmall = rest.head?.any isSmall := by
        cases rest with
        | nil => simp [hdot]
        | cons c rest => rfl
      rw [List.cons_append] at ih ⊢
      rw [List.cons_append, divided_cons, ih, hhead, divided_cons, List.cons_append, List.append_assoc]

/-- A text without capitals is not divided. -/
theorem divided_of_not_isCapital {s : List Char} (h : ∀ c ∈ s, isCapital c = false) : divided s = s := by
  induction s with
  | nil => rfl
  | cons a rest ih =>
    cases rest with
    | nil => rfl
    | cons b rest =>
      rw [List.forall_mem_cons] at h
      have hb : isCapital b = false := h.2 b List.mem_cons_self
      rw [divided_cons, hb, Bool.false_and, ih h.2]
      rfl

theorem snakeChars_eq_lower_divided (s : List Char) : snakeChars s = Text.lower (divided s) := by
  rw [snakeChars, splitAcronyms_splitAtCapitals]

/-! ## Lower case in names -/

/-- Lower case changes capitals. -/
theorem not_isCapital_of_isSettled {c : Char} (h : Text.IsSettled c) : isCapital c = false := by
  have hcovers : (⟨0x41, 0x5A, 1, 0x61⟩ : Text.CaseRun).covers c.toNat = false :=
    (Text.isSettled_iff.1 h).2 _ List.mem_cons_self
  by_contra hcapital
  simp only [isCapital, Bool.not_eq_false, Bool.and_eq_true, decide_eq_true_eq, Char.le_def, UInt32.le_iff_toNat_le] at hcapital
  rw [Text.CaseRun.covers_iff.2 ⟨hcapital.1, hcapital.2, Nat.mod_one _⟩] at hcovers
  cases hcovers

/-- The snake_case form of a text without anything for lower case to change is the text. -/
theorem snakeChars_of_isSettled {s : List Char} (h : ∀ c ∈ s, Text.IsSettled c) : snakeChars s = s := by
  rw [snakeChars_eq_lower_divided, divided_of_not_isCapital fun c hc => not_isCapital_of_isSettled (h c hc)]
  exact Text.lower_eq_self_iff.2 h

/-- Lower case changes nothing in a snake_case form. -/
theorem isSettled_of_mem_snakeChars {s : List Char} {c : Char} (h : c ∈ snakeChars s) : Text.IsSettled c := by
  rw [snakeChars_eq_lower_divided] at h
  exact Text.isSettled_of_mem_lowerAfter h

theorem snakeChars_snakeChars (s : List Char) : snakeChars (snakeChars s) = snakeChars s :=
  snakeChars_of_isSettled fun _ hc => isSettled_of_mem_snakeChars hc

theorem snakeChars_eq_self_iff {s : List Char} : snakeChars s = s ↔ Text.lower s = s := by
  constructor
  · intro h
    refine Text.lower_eq_self_iff.2 fun c hc => ?_
    rw [← h] at hc
    exact isSettled_of_mem_snakeChars hc
  · exact fun h => snakeChars_of_isSettled (Text.lower_eq_self_iff.1 h)

/-- The snake_case form of a name is its own snake_case form, and a name is its own snake_case form exactly when it is its own lower
case. -/
theorem snakeCase_fixed (name : String) :
    snakeCase (snakeCase name) = snakeCase name ∧ (snakeCase name = name ↔ Text.lowered name = name) := by
  have hself : ∀ s : String, snakeCase s = s ↔ snakeChars s.toList = s.toList := by
    intro s
    rw [snakeCase, ← String.toList_inj, String.toList_ofList]
  constructor
  · rw [hself, snakeCase, String.toList_ofList, snakeChars_snakeChars]
  · rw [hself, Text.lowered_eq_self_iff, snakeChars_eq_self_iff]

/-- A capital sigma at the end of a word takes its final form, which stays when the form is taken again. -/
example : snakeCase "MyΟΔΟΣ" = "myοδος" ∧ snakeCase "myοδος" = "myοδος" := by decide +kernel

end WorkspaceLint.Naming
