import WorkspaceLint.Proofs.TextSearch
import WorkspaceLint.Source.CompileTargets

/-!
# Declared targets are read back

A compile file may declare its targets as an array of quoted paths or as a field with one. However such a declaration is set, with
blanks, with any quotes, with a comma after the last item or without one, and whatever stands before and after it, what is read of the
text are the paths, in their order, and the form (`targetsOf_declared`). An array that is declared counts before every field; a field
counts where the text has no array (`HasArray`).
-/

namespace WorkspaceLint.Source

/-! ## How targets are written -/

/-- Blank space, or none. -/
structure Blanks where
  /-- The characters. -/
  chars : List Char
  /-- They are blank. -/
  blank : ∀ c ∈ chars, Text.isBlank c = true

/-- A path in quotes. -/
structure QuotedPath where
  /-- The path. -/
  path : List Char
  /-- The quote before and after it. -/
  quote : Char
  /-- The path is not empty. -/
  ne_nil : path ≠ []
  /-- There are no quotes in it. -/
  unquoted : ∀ c ∈ path, isQuote c = false
  /-- The quote is one. -/
  quote_isQuote : isQuote quote = true

/-- The path between its quotes. -/
def QuotedPath.text (p : QuotedPath) : List Char := p.quote :: p.path ++ [p.quote]

/-- An item of an array: a path in quotes that does not hold what ends items and arrays, with blanks around it. -/
structure ArrayItem extends QuotedPath where
  /-- The blanks before the path. -/
  before : Blanks
  /-- The blanks after it. -/
  after : Blanks
  /-- There is no comma in the path. -/
  no_comma : ',' ∉ path
  /-- There is no closing bracket in the path. -/
  no_bracket : ']' ∉ path

/-- The item with its blanks. -/
def ArrayItem.text (x : ArrayItem) : List Char := x.before.chars ++ x.toQuotedPath.text ++ x.after.chars

/-- An array of targets. -/
structure TargetArray where
  /-- The blanks before the array. -/
  before : Blanks
  /-- The items. -/
  items : List ArrayItem
  /-- Whether a comma follows the last item. -/
  endsInComma : Bool
  /-- The blanks at the end of the array. -/
  closing : Blanks

/-- What stands in the brackets of an array. -/
def TargetArray.body (a : TargetArray) : List Char :=
  [','].intercalate (a.items.map (·.text)) ++ ((if a.endsInComma then [','] else []) ++ a.closing.chars)

/-- The declaration of an array. -/
def TargetArray.text (a : TargetArray) : List Char := "targets:".toList ++ a.before.chars ++ '[' :: a.body ++ [']']

/-- A field with a target. -/
structure TargetField extends QuotedPath where
  /-- The blanks before the path. -/
  before : Blanks

/-- The declaration of a field. -/
def TargetField.text (f : TargetField) : List Char := "target:".toList ++ f.before.chars ++ f.toQuotedPath.text

/-- An array is declared somewhere in a text: the key, blanks, and brackets, the closing one anywhere after the opening one. -/
def HasArray (s : List Char) : Prop :=
  ∃ (before body after : List Char) (blanks : Blanks),
    s = before ++ ("targets:".toList ++ (blanks.chars ++ '[' :: (body ++ ']' :: after)))

/-! ## Characters -/

/-- No quote is blank. -/
theorem not_isBlank_of_isQuote {c : Char} (h : isQuote c = true) : Text.isBlank c = false := by
  simp only [isQuote, Bool.or_eq_true, beq_iff_eq] at h
  rcases h with (rfl | rfl) | rfl <;> decide

/-- The part of a text before the first of a character. -/
theorem takeWhile_until {c : Char} {s : List Char} (h : c ∉ s) (t : List Char) : (s ++ c :: t).takeWhile (· ≠ c) = s := by
  have hs : ∀ d ∈ s, decide (d ≠ c) = true := fun d hd => decide_eq_true fun he => h (he ▸ hd)
  exact Text.takeWhile_append_of_head hs (by simp)

namespace Blanks

variable (b : Blanks)

theorem strip_eq_nil : Text.strip b.chars = [] := by
  have h : Text.strip (b.chars ++ [] ++ []) = [] := Text.strip_append b.blank (by simp) (by simp) (by simp)
  simpa using h

/-- Characters that are not blank are not among blanks. -/
theorem not_mem {c : Char} (h : Text.isBlank c = false) : c ∉ b.chars := fun hc => by
  rw [b.blank c hc] at h
  nomatch h

end Blanks

namespace QuotedPath

variable (p : QuotedPath)

/-- Blanks around a path in quotes are taken off it. -/
theorem strip_text {before after : List Char} (hbefore : ∀ c ∈ before, Text.isBlank c = true)
    (hafter : ∀ c ∈ after, Text.isBlank c = true) : Text.strip (before ++ p.text ++ after) = p.text := by
  have hquote := not_isBlank_of_isQuote p.quote_isQuote
  refine Text.strip_append hbefore hafter ?_ ?_
  · rintro c ⟨⟩
    exact hquote
  · intro c hc
    rw [text, List.getLast?_concat] at hc
    cases hc
    exact hquote

/-- A path in quotes without its quotes. -/
theorem filter_text : p.text.filter (!isQuote ·) = p.path := by
  have hpath : p.path.filter (!isQuote ·) = p.path := List.filter_eq_self.2 fun c hc => by simp [p.unquoted c hc]
  simp [text, p.quote_isQuote, hpath]

/-- A character that is no quote stands in a path with its quotes only if it does in the path. -/
theorem not_mem_text {c : Char} (hquote : isQuote c = false) (hpath : c ∉ p.path) : c ∉ p.text := by
  intro hc
  simp only [text, List.cons_append, List.mem_cons, List.mem_append, List.not_mem_nil, or_false] at hc
  rcases hc with rfl | hc | rfl
  · rw [p.quote_isQuote] at hquote
    nomatch hquote
  · exact hpath hc
  · rw [p.quote_isQuote] at hquote
    nomatch hquote

end QuotedPath

/-! ## Items -/

/-- What stands before the first comma, and what stands after it, are read on their own. -/
theorem targetItems_append_cons {s : List Char} (h : ',' ∉ s) (t : List Char) :
    targetItems (s ++ ',' :: t) = targetItems s ++ targetItems t := by
  rw [targetItems, targetItems, targetItems, List.splitOn_append_cons_self_of_not_mem h, List.splitOn_eq_singleton h,
    ← List.singleton_append, List.map_append, List.filter_append]

/-- Blanks are no item. -/
theorem targetItems_blanks (b : Blanks) : targetItems b.chars = [] := by
  simp [targetItems, List.splitOn_eq_singleton (b.not_mem (by decide : Text.isBlank ',' = false)), b.strip_eq_nil]

namespace ArrayItem

variable (x : ArrayItem)

/-- A character that is neither blank nor a quote stands in an item only if it does in the path. -/
theorem not_mem_text {c : Char} (hblank : Text.isBlank c = false) (hquote : isQuote c = false) (hpath : c ∉ x.path) :
    c ∉ x.text := by
  simp only [text, List.mem_append, not_or]
  exact ⟨⟨x.before.not_mem hblank, x.toQuotedPath.not_mem_text hquote hpath⟩, x.after.not_mem hblank⟩

theorem comma_not_mem_text : ',' ∉ x.text := x.not_mem_text (by decide) (by decide) x.no_comma

theorem bracket_not_mem_text : ']' ∉ x.text := x.not_mem_text (by decide) (by decide) x.no_bracket

/-- An item, and blanks at the end of the array if it is the last, are read as the path. -/
theorem targetItems_text {closing : List Char} (hclosing : ∀ c ∈ closing, Text.isBlank c = true) :
    targetItems (x.text ++ closing) = [x.path] := by
  have hcomma : ',' ∉ x.text ++ closing := by
    rw [List.mem_append, not_or]
    exact ⟨x.comma_not_mem_text, (⟨closing, hclosing⟩ : Blanks).not_mem (by decide)⟩
  have hstrip : Text.strip (x.text ++ closing) = x.toQuotedPath.text := by
    rw [text, List.append_assoc]
    exact x.toQuotedPath.strip_text x.before.blank (List.forall_mem_append.2 ⟨x.after.blank, hclosing⟩)
  simp [targetItems, List.splitOn_eq_singleton hcomma, hstrip, x.toQuotedPath.filter_text, x.ne_nil]

end ArrayItem

namespace TargetArray

/-- The items of an array are read as their paths, with a comma after the last one or without. -/
theorem targetItems_intercalate (items : List ArrayItem) (endsInComma : Bool) (closing : Blanks) :
    targetItems ([','].intercalate (items.map (·.text)) ++ ((if endsInComma then [','] else []) ++ closing.chars)) =
      items.map (·.path) := by
  have hlone : ∀ x : ArrayItem, targetItems x.text = [x.path] := fun x => by
    have h : targetItems (x.text ++ []) = [x.path] := x.targetItems_text (by simp)
    rwa [List.append_nil] at h
  induction items with
  | nil =>
    cases endsInComma with
    | false => exact targetItems_blanks closing
    | true => exact (targetItems_append_cons (by simp) closing.chars).trans (targetItems_blanks closing)
  | cons x rest ih =>
    cases rest with
    | nil =>
      rw [List.map_singleton, List.intercalate_singleton]
      cases endsInComma with
      | false => exact x.targetItems_text closing.blank
      | true =>
        exact (targetItems_append_cons x.comma_not_mem_text closing.chars).trans (by rw [hlone, targetItems_blanks]; rfl)
    | cons y rest =>
      rw [List.map_cons, List.map_cons, List.intercalate_cons_cons, List.append_assoc, List.append_assoc, List.singleton_append,
        targetItems_append_cons x.comma_not_mem_text, hlone, ← List.map_cons, ih]
      rfl

/-- The body of an array does not hold the bracket that ends it. -/
theorem bracket_not_mem_body (a : TargetArray) : ']' ∉ a.body := by
  have hitems : ']' ∉ [','].intercalate (a.items.map (·.text)) := Text.not_mem_intercalate (by decide) fun s hs => by
    obtain ⟨x, -, rfl⟩ := List.mem_map.1 hs
    exact x.bracket_not_mem_text
  have hclosing : ']' ∉ a.closing.chars := a.closing.not_mem (by decide)
  have hcomma : ']' ∉ if a.endsInComma then [','] else [] := by split <;> simp
  simp [body, hitems, hclosing, hcomma]

end TargetArray

/-! ## Declarations -/

/-- What is read where an array is declared is what stands in its brackets, up to the first that closes them. -/
theorem targetArrayHere?_eq_some_iff {s body : List Char} : targetArrayHere? s = some body ↔
    ']' ∉ body ∧ ∃ (blanks : Blanks) (after : List Char),
      s = "targets:".toList ++ (blanks.chars ++ '[' :: (body ++ ']' :: after)) := by
  rw [targetArrayHere?, Option.bind_eq_bind, Option.bind_eq_some_iff]
  constructor
  · rintro ⟨rest, hrest, h⟩
    obtain rfl := Text.afterLiteral?_eq_some_iff.1 hrest
    split at h
    · rename_i inside hinside
      split at h
      · rename_i hbracket
        obtain ⟨start, after, rfl, hstart⟩ := List.eq_append_cons_of_mem (List.contains_iff_mem.1 hbracket)
        rw [takeWhile_until hstart] at h
        cases h
        refine ⟨hstart, ⟨rest.takeWhile Text.isBlank, fun c hc => List.mem_takeWhile_imp hc⟩, after, ?_⟩
        rw [← hinside, List.takeWhile_append_dropWhile]
      · nomatch h
    · nomatch h
  · rintro ⟨hbody, blanks, after, rfl⟩
    refine ⟨_, Text.afterLiteral?_append _ _, ?_⟩
    rw [Text.dropWhile_append_of_head blanks.blank (by simp; decide)]
    show (if (body ++ ']' :: after).contains ']' then some ((body ++ ']' :: after).takeWhile (· ≠ ']')) else none) = some body
    rw [if_pos (by simp), takeWhile_until hbody]

/-- No array is found in a text that declares none. -/
theorem firstMatch?_targetArrayHere?_eq_none_iff {s : List Char} : Text.firstMatch? targetArrayHere? s = none ↔ ¬HasArray s := by
  rw [Text.firstMatch?_eq_none_iff]
  constructor
  · rintro h ⟨before, body, after, blanks, rfl⟩
    have hbracket : ']' ∈ body ++ ']' :: after := by simp
    obtain ⟨start, more, hmore, hstart⟩ := List.eq_append_cons_of_mem hbracket
    have hread := h _ (List.suffix_append before _)
    rw [hmore, targetArrayHere?_eq_some_iff.2 ⟨hstart, blanks, more, rfl⟩] at hread
    nomatch hread
  · rintro h v ⟨before, rfl⟩
    refine Option.eq_none_iff_forall_ne_some.2 fun body hread => h ?_
    obtain ⟨-, blanks, after, rfl⟩ := targetArrayHere?_eq_some_iff.1 hread
    exact ⟨before, body, after, blanks, rfl⟩

/-- A declaration of an array is found behind a text that does not hold its key. -/
theorem TargetArray.firstMatch?_text (a : TargetArray) {before : List Char} (hbefore : ¬"targets:".toList <:+: before)
    (after : List Char) : Text.firstMatch? targetArrayHere? (before ++ a.text ++ after) = some a.body := by
  have htext : a.text ++ after = "targets:".toList ++ (a.before.chars ++ '[' :: (a.body ++ ']' :: after)) := by
    unfold TargetArray.text
    generalize "targets:".toList = key
    simp
  have hkey : "targets:".toList = "targets".toList ++ [':'] := by decide
  have hmiss : ∀ v, v ≠ [] → v <:+ before → targetArrayHere? (v ++ (a.text ++ after)) = none := fun v hv hsuffix => by
    rw [htext, targetArrayHere?, Text.afterLiteral?_before hkey (by decide) hbefore hv hsuffix]
    rfl
  rw [List.append_assoc, Text.firstMatch?_append hmiss, htext]
  exact Text.firstMatch?_of_read (targetArrayHere?_eq_some_iff.2 ⟨a.bracket_not_mem_body, a.before, after, rfl⟩)

/-- A declaration of a field, read where it starts. -/
theorem TargetField.targetFieldHere?_text (f : TargetField) (after : List Char) :
    targetFieldHere? (f.text ++ after) = some f.path := by
  have htext : f.text ++ after = "target:".toList ++ (f.before.chars ++ f.quote :: (f.path ++ f.quote :: after)) := by
    unfold TargetField.text QuotedPath.text
    generalize "target:".toList = key
    simp
  have hquote := f.quote_isQuote
  have hpath : (f.path ++ f.quote :: after).takeWhile (!isQuote ·) = f.path := by
    refine Text.takeWhile_append_of_head (fun c hc => ?_) ?_
    · simp [f.unquoted c hc]
    · simp [hquote]
  rw [htext, targetFieldHere?, Text.afterLiteral?_append]
  simp only [Option.bind_eq_bind, Option.bind_some]
  rw [Text.dropWhile_append_of_head f.before.blank (by simp [not_isBlank_of_isQuote hquote])]
  dsimp only
  rw [hpath, if_pos (by simp [hquote, f.ne_nil])]

/-- A declaration of a field is found behind a text that does not hold its key. -/
theorem TargetField.firstMatch?_text (f : TargetField) {before : List Char} (hbefore : ¬"target:".toList <:+: before)
    (after : List Char) : Text.firstMatch? targetFieldHere? (before ++ f.text ++ after) = some f.path := by
  have htext : f.text ++ after = "target:".toList ++ (f.before.chars ++ (f.toQuotedPath.text ++ after)) := by
    unfold TargetField.text
    generalize "target:".toList = key
    simp
  have hkey : "target:".toList = "target".toList ++ [':'] := by decide
  have hmiss : ∀ v, v ≠ [] → v <:+ before → targetFieldHere? (v ++ (f.text ++ after)) = none := fun v hv hsuffix => by
    rw [htext, targetFieldHere?, Text.afterLiteral?_before hkey (by decide) hbefore hv hsuffix]
    rfl
  rw [List.append_assoc, Text.firstMatch?_append hmiss]
  exact Text.firstMatch?_of_read (f.targetFieldHere?_text after)

/-- What is read of a text that declares targets are their paths, in order, and the form: of an array, when its key does not stand
before it, whatever else stands around it; of a field, when the text declares no array and the key of fields does not stand before
it. -/
theorem targetsOf_declared (before after : List Char) :
    (∀ a : TargetArray, ¬"targets:".toList <:+: before →
      targetsOf (String.ofList (before ++ a.text ++ after)) = (a.items.map (String.ofList ·.path), some .array)) ∧
    (∀ f : TargetField, ¬HasArray (before ++ f.text ++ after) → ¬"target:".toList <:+: before →
      targetsOf (String.ofList (before ++ f.text ++ after)) = ([String.ofList f.path], some .field)) := by
  constructor
  · intro a hbefore
    have hitems : targetItems a.body = a.items.map (·.path) := TargetArray.targetItems_intercalate a.items a.endsInComma a.closing
    rw [targetsOf, String.toList_ofList, declaredTargets, a.firstMatch?_text hbefore]
    dsimp only
    rw [hitems, List.map_map]
    rfl
  · intro f harray hbefore
    rw [targetsOf, String.toList_ofList, declaredTargets, firstMatch?_targetArrayHere?_eq_none_iff.2 harray,
      f.firstMatch?_text hbefore]
    rfl

end WorkspaceLint.Source

namespace WorkspaceLint.DeclaredTargets

open Source

/-- One blank. -/
def blank : Blanks := ⟨[' '], List.forall_mem_singleton.2 (by decide)⟩

/-- An array with two items and a comma after the second: ` [ 'a.fc' , "b.fc" ,]`. -/
def array : TargetArray where
  before := blank
  items :=
    [{ path := "a.fc".toList, quote := '\x27', ne_nil := by decide, unquoted := by simp [isQuote], quote_isQuote := by decide,
       before := blank, after := blank, no_comma := by decide, no_bracket := by decide },
     { path := "b.fc".toList, quote := '\x22', ne_nil := by decide, unquoted := by simp [isQuote], quote_isQuote := by decide,
       before := blank, after := blank, no_comma := by decide, no_bracket := by decide }]
  endsInComma := true
  closing := ⟨[], nofun⟩

/-- A field: ` 'c.fc'`. -/
def field : TargetField where
  path := "c.fc".toList
  quote := '\x27'
  ne_nil := by decide
  unquoted := by simp [isQuote]
  quote_isQuote := by decide
  before := blank

end WorkspaceLint.DeclaredTargets

namespace WorkspaceLint.Source

/-- The array between two fields is read; and the field is, where no bracket closes. -/
theorem targetsOf_declared_both :
    targetsOf "target: 'c.fc', targets: [ 'a.fc' , \x22b.fc\x22 ,], target: 'c.fc'" = (["a.fc", "b.fc"], some .array) ∧
      targetsOf "targets: [ target: 'c.fc', target: 'd.fc'" = (["c.fc"], some .field) := by
  constructor
  · exact (targetsOf_declared "target: 'c.fc', ".toList ", target: 'c.fc'".toList).1 DeclaredTargets.array (by decide)
  · refine (targetsOf_declared "targets: [ ".toList ", target: 'd.fc'".toList).2 DeclaredTargets.field ?_ (by decide)
    exact firstMatch?_targetArrayHere?_eq_none_iff.1 (by decide +kernel)

end WorkspaceLint.Source
