import WorkspaceLint.Path

/-!
# Paths read and written

A path whose parts are names is read from its text as it was written (`ofString_text`), so a location that is seen from a root
leads back to the path it was made of (`join_relativeLocation`), and different paths have different locations.
-/

namespace WorkspaceLint

/-! ## Paths below a path -/

/-- A part of a path that can be read back: not empty, no single dot, and without slashes. -/
def IsPart (x : String) : Prop := x ≠ "" ∧ x ≠ "." ∧ '/' ∉ x.toList

namespace Path

/-- The path along names from a path. -/
def below (p : Path) (names : List String) : Path := ⟨p.anchor, p.parts ++ names⟩

@[simp] theorem below_anchor (p : Path) (names : List String) : (p.below names).anchor = p.anchor := rfl

@[simp] theorem below_parts (p : Path) (names : List String) : (p.below names).parts = p.parts ++ names := rfl

@[simp] theorem below_nil (p : Path) : p.below [] = p := by
  cases p
  simp [below]

@[simp] theorem below_below (p : Path) (a b : List String) : (p.below a).below b = p.below (a ++ b) := by
  simp [below]

theorem child_eq_below (p : Path) (name : String) : p.child name = p.below [name] := rfl

theorem below_child (p : Path) (names : List String) (name : String) : (p.below names).child name = p.below (names ++ [name]) :=
  below_below p names [name]

theorem child_below (p : Path) (names : List String) (name : String) : (p.child name).below names = p.below (name :: names) :=
  below_below p [name] names

theorem below_inj {p : Path} {a b : List String} : p.below a = p.below b ↔ a = b := by
  simp [below]

theorem child_parent (p : Path) (name : String) : (p.child name).parent = p := by
  cases p
  simp [child, parent]

theorem child_name (p : Path) (name : String) : (p.child name).name = name := by
  simp [child, Path.name]

/-- The last name of a path that goes on below another one is the last of the names below. -/
theorem below_name (p : Path) {names : List String} (h : names ≠ []) : (p.below names).name = names.getLastD "" := by
  obtain ⟨name, rest, rfl⟩ := List.exists_cons_of_ne_nil h
  rw [Path.name, below_parts, List.getLastD_eq_getLast?, List.getLast?_append, List.getLastD_eq_getLast?]
  simp [List.getLast?_cons]

theorem stem_of_name {p q : Path} (h : p.name = q.name) : p.stem = q.stem := by
  rw [stem, stem, h]

theorem suffix_of_name {p q : Path} (h : p.name = q.name) : p.suffix = q.suffix := by
  rw [suffix, suffix, h]

/-- A relative path is followed from another one. -/
theorem join_relative {p q : Path} (h : q.anchor = .relative) : p.join q = p.below q.parts := by
  simp [join, h, below]

/-- An anchored path stands for itself. -/
theorem join_anchored {p q : Path} (h : q.anchor ≠ .relative) : p.join q = q := by
  unfold join
  split
  · contradiction
  · rfl

/-- A path seen from another one, and joined to it again. -/
theorem relativeTo?_eq_some {p base r : Path} (h : p.relativeTo? base = some r) :
    r.anchor = .relative ∧ p = base.below r.parts := by
  rw [relativeTo?] at h
  split at h
  · rename_i hp
    cases h
    refine ⟨rfl, ?_⟩
    obtain ⟨t, ht⟩ := List.isPrefixOf_iff_prefix.1 hp.2
    cases p
    cases base
    simp only at hp ht
    subst ht
    simp [below, hp.1]
  · nomatch h

theorem below_relativeTo? (p : Path) (names : List String) : (p.below names).relativeTo? p = some (.ofParts names) := by
  simp [relativeTo?, ofParts]

/-- A path lies in a directory: it is the directory's own, or goes on below it. -/
def IsWithin (p directory : Path) : Prop := ∃ names, p = directory.below names

theorem IsWithin.refl (p : Path) : p.IsWithin p := ⟨[], (below_nil p).symm⟩

theorem IsWithin.trans {p q r : Path} (h : p.IsWithin q) (h' : q.IsWithin r) : p.IsWithin r := by
  obtain ⟨names, rfl⟩ := h
  obtain ⟨more, rfl⟩ := h'
  exact ⟨more ++ names, below_below r more names⟩

theorem isWithin_iff {p directory : Path} : p.IsWithin directory ↔ (p.relativeTo? directory).isSome = true := by
  constructor
  · rintro ⟨names, rfl⟩
    rw [below_relativeTo?]
    rfl
  · intro h
    obtain ⟨r, hr⟩ := Option.isSome_iff_exists.1 h
    exact ⟨r.parts, (relativeTo?_eq_some hr).2⟩

instance (p directory : Path) : Decidable (p.IsWithin directory) := decidable_of_iff _ isWithin_iff.symm

/-- The path of an entry lies in a directory when the path before it does, unless it is the directory's own. -/
theorem child_isWithin_iff {p directory : Path} {name : String} :
    (p.child name).IsWithin directory ↔ p.IsWithin directory ∨ p.child name = directory := by
  constructor
  · rintro ⟨names, h⟩
    rcases List.eq_nil_or_concat names with rfl | ⟨init, last, rfl⟩
    · exact Or.inr (h.trans (below_nil directory))
    · left
      rw [List.concat_eq_append, ← below_child] at h
      refine ⟨init, ?_⟩
      rw [← child_parent p name, h, child_parent]
  · rintro (⟨names, rfl⟩ | rfl)
    · exact ⟨names ++ [name], below_child directory names name⟩
    · exact .refl _

/-- A path whose names start with those of a directory lies in it. -/
theorem isWithin_of_parts {p directory : Path} (hanchor : p.anchor = directory.anchor) (h : directory.parts <+: p.parts) :
    p.IsWithin directory := by
  obtain ⟨names, hnames⟩ := h
  refine ⟨names, ?_⟩
  rw [below, hnames, ← hanchor]

/-! ## Reading what was written -/

/-- The characters of names with slashes between them. -/
def namesChars (names : List String) : List Char := ['/'].intercalate (names.map String.toList)

theorem namesChars_eq (names : List String) : ("/".intercalate names).toList = namesChars names := by
  rw [String.toList_intercalate, namesChars]
  rfl

/-- A character other than the slash stands in names with slashes between them when it stands in one of the names. -/
theorem mem_namesChars {names : List String} {c : Char} (hc : c ≠ '/') :
    c ∈ namesChars names ↔ ∃ x ∈ names, c ∈ x.toList := by
  induction names with
  | nil => simp [namesChars]
  | cons x rest ih =>
    cases rest with
    | nil => simp [namesChars]
    | cons y ys =>
      rw [namesChars, List.map_cons, List.intercalate_cons_of_ne_nil (by simp)]
      rw [namesChars, List.map_cons] at ih
      rw [List.mem_append, List.mem_append, List.mem_singleton, List.map_cons, ih]
      simp [hc]

/-- A character other than the slash and the dot stands in the text of a path when it stands in one of the parts. -/
theorem mem_text_iff {p : Path} {c : Char} (hc : c ≠ '/') (hd : c ≠ '.') :
    c ∈ p.text.toList ↔ ∃ x ∈ p.parts, c ∈ x.toList := by
  rw [text]
  split
  · rename_i h
    simp [h.2, hd]
  · rw [String.toList_append, List.mem_append, namesChars_eq, mem_namesChars hc]
    cases p.anchor <;> simp [Anchor.text, hc]

/-- The text of a path has no null character when no part has one. -/
theorem nul_not_mem_text {p : Path} : '\x00' ∉ p.text.toList ↔ ∀ x ∈ p.parts, '\x00' ∉ x.toList := by
  rw [mem_text_iff (by decide) (by decide)]
  simp

theorem namesChars_concat {names : List String} (h : names ≠ []) (name : String) :
    namesChars (names ++ [name]) = namesChars names ++ '/' :: name.toList := by
  induction names with
  | nil => exact absurd rfl h
  | cons x rest ih =>
    by_cases hr : rest = []
    · subst hr
      simp [namesChars]
    · have hne : (rest.map String.toList) ≠ [] := by simpa using hr
      have hne' : ((rest ++ [name]).map String.toList) ≠ [] := by simp
      rw [namesChars, List.cons_append, List.map_cons, List.intercalate_cons_of_ne_nil hne', ← namesChars, ih hr, namesChars,
        namesChars, List.map_cons, List.intercalate_cons_of_ne_nil hne]
      simp

/-- The path of an entry is written with the name after the path of its directory. -/
theorem utf8ByteSize_text_child {p : Path} (hp : p.anchor ≠ .relative ∨ p.parts ≠ []) (name : String) :
    p.text.utf8ByteSize + name.utf8ByteSize ≤ (p.child name).text.utf8ByteSize := by
  have htext : p.text = p.anchor.text ++ "/".intercalate p.parts := by
    rw [text, if_neg fun h => hp.elim (fun ha => ha h.1) fun hne => hne h.2]
  have htext' : (p.child name).text = p.anchor.text ++ "/".intercalate (p.parts ++ [name]) := by
    rw [text, if_neg fun h => by simp [child] at h]
    rfl
  rw [htext, htext', String.utf8ByteSize_append, String.utf8ByteSize_append, Nat.add_assoc]
  apply Nat.add_le_add_left
  by_cases h : p.parts = []
  · simp [h]
  · have hc : "/".intercalate (p.parts ++ [name]) = "/".intercalate p.parts ++ ("/" ++ name) := by
      apply String.toList_injective
      rw [namesChars_eq, namesChars_concat h, String.toList_append, namesChars_eq, String.toList_append]
      rfl
    rw [hc, String.utf8ByteSize_append, String.utf8ByteSize_append]
    omega

/-- A path that goes on below another one is written with all the names after it. -/
theorem utf8ByteSize_text_below {p : Path} (hp : p.anchor ≠ .relative ∨ p.parts ≠ []) {k : Nat} {names : List String}
    (hk : ∀ x ∈ names, k ≤ x.utf8ByteSize) : p.text.utf8ByteSize + k * names.length ≤ (p.below names).text.utf8ByteSize := by
  induction names generalizing p with
  | nil => simp
  | cons name rest ih =>
    rw [List.forall_mem_cons] at hk
    have hchild := utf8ByteSize_text_child hp name
    have hrest := ih (p := p.child name) (Or.inr (by simp [child])) hk.2
    rw [← child_below, List.length_cons, Nat.mul_succ]
    omega

/-- A path is below a limit when a path that goes on below it is. -/
theorem utf8ByteSize_text_lt_of_below {p : Path} {names : List String} {limit : Nat} (hl : 1 < limit)
    (h : (p.below names).text.utf8ByteSize < limit) : p.text.utf8ByteSize < limit := by
  by_cases hp : p.anchor = .relative ∧ p.parts = []
  · rw [text, if_pos hp]
    exact hl
  · have hlen : p.text.utf8ByteSize + 0 * names.length ≤ (p.below names).text.utf8ByteSize :=
      utf8ByteSize_text_below (Classical.not_and_iff_not_or_not.1 hp) fun _ _ => Nat.zero_le _
    exact Nat.lt_of_le_of_lt (Nat.le_of_add_right_le hlen) h

theorem partsOfChars_namesChars {names : List String} (h : ∀ x ∈ names, IsPart x) :
    partsOfChars (namesChars names) = names := by
  by_cases hn : names = []
  · subst hn
    decide
  · rw [partsOfChars, namesChars, List.splitOn_intercalate '/' _ (by simpa using hn)]
    · rw [List.filter_eq_self.2, List.map_map]
      · simp [Function.comp_def]
      · intro l hl
        obtain ⟨x, hx, rfl⟩ := List.mem_map.1 hl
        have hne : x.toList ≠ [] := fun hc => (h x hx).1 (String.toList_eq_nil_iff.1 hc)
        have hdot : x.toList ≠ ['.'] := fun hc => (h x hx).2.1 (String.toList_injective hc)
        simp [hne, hdot]
    · intro l hl
      obtain ⟨x, hx, rfl⟩ := List.mem_map.1 hl
      exact (h x hx).2.2

theorem partsOfChars_slash (s : List Char) : partsOfChars ('/' :: s) = partsOfChars s := by
  simp [partsOfChars, List.splitOn, List.splitOnP_cons_eq_if_modifyHead]

/-- Names with slashes between them do not start with a slash. -/
theorem namesChars_head? {names : List String} (h : ∀ x ∈ names, IsPart x) : (namesChars names).head? ≠ some '/' := by
  cases names with
  | nil => simp [namesChars]
  | cons x rest =>
    obtain ⟨hne, -, hslash⟩ := h x List.mem_cons_self
    have hxl : x.toList ≠ [] := fun hc => hne (String.toList_eq_nil_iff.1 hc)
    obtain ⟨c, cs, hx⟩ := List.exists_cons_of_ne_nil hxl
    have hc : c ≠ '/' := by
      rintro rfl
      exact hslash (by rw [hx]; simp)
    cases rest with
    | nil => simpa [namesChars, hx] using hc
    | cons y ys =>
      rw [namesChars, List.map_cons, List.intercalate_cons_of_ne_nil (by simp), hx]
      simpa using hc

end Path

theorem Anchor.ofChars_of_head? {s : List Char} (h : s.head? ≠ some '/') : Anchor.ofChars s = .relative := by
  unfold Anchor.ofChars
  split <;> simp_all

theorem Anchor.ofChars_slash {s : List Char} (h : s.head? ≠ some '/') : Anchor.ofChars ('/' :: s) = .root := by
  cases s with
  | nil => rfl
  | cons c rest =>
    have hc : c ≠ '/' := by simpa using h
    simp [Anchor.ofChars, hc]

theorem Anchor.ofChars_slash_slash {s : List Char} (h : s.head? ≠ some '/') :
    Anchor.ofChars ('/' :: '/' :: s) = .doubleRoot := by
  cases s with
  | nil => rfl
  | cons c rest =>
    have hc : c ≠ '/' := by simpa using h
    simp [Anchor.ofChars, hc]

namespace Path

/-- A path whose parts can be read is read from its text. -/
theorem ofString_text {p : Path} (h : ∀ x ∈ p.parts, IsPart x) : ofString p.text = p := by
  obtain ⟨anchor, parts⟩ := p
  have hhead := namesChars_head? h
  have hparts := partsOfChars_namesChars h
  cases anchor with
  | relative =>
    by_cases hn : parts = []
    · subst hn
      decide
    · have ht : (text ⟨.relative, parts⟩).toList = namesChars parts := by
        rw [text, if_neg (by simp [hn]), String.toList_append, namesChars_eq]
        simp [Anchor.text]
      rw [ofString, ht, hparts, Anchor.ofChars_of_head? hhead]
  | root =>
    have ht : (text ⟨.root, parts⟩).toList = '/' :: namesChars parts := by
      rw [text, if_neg (by simp), String.toList_append, namesChars_eq]
      simp [Anchor.text]
    rw [ofString, ht, partsOfChars_slash, hparts, Anchor.ofChars_slash hhead]
  | doubleRoot =>
    have ht : (text ⟨.doubleRoot, parts⟩).toList = '/' :: '/' :: namesChars parts := by
      rw [text, if_neg (by simp), String.toList_append, namesChars_eq]
      simp [Anchor.text]
    rw [ofString, ht, partsOfChars_slash, partsOfChars_slash, hparts, Anchor.ofChars_slash_slash hhead]

/-- The text of a single name is the name. -/
theorem text_ofParts_singleton (name : String) : (ofParts [name]).text = name := by
  rw [text, if_neg (by simp [ofParts])]
  simp [ofParts, Anchor.text]

/-- A single part is read as it is. -/
theorem ofString_part {name : String} (h : IsPart name) : ofString name = .ofParts [name] := by
  have hread := ofString_text (p := .ofParts [name]) (by simpa [ofParts] using h)
  rwa [text_ofParts_singleton] at hread

/-- A single part that is read and joined to a path is a child of it. -/
theorem join_ofString_part {p : Path} {name : String} (h : IsPart name) : p.join (ofString name) = p.child name := by
  rw [ofString_part h]
  rfl

/-- The pieces of a text between separators hold no separator. -/
theorem not_mem_of_mem_splitOn (c : Char) (s : List Char) : ∀ l ∈ s.splitOn c, c ∉ l := by
  induction s with
  | nil => simp [List.splitOn]
  | cons x xs ih =>
    rw [List.splitOn, List.splitOnP_cons_eq_if_modifyHead]
    rw [List.splitOn] at ih
    by_cases hx : x = c
    · simpa [hx] using ih
    · obtain ⟨l, ls, hl⟩ := List.exists_cons_of_ne_nil (List.splitOnP_ne_nil (· == c) xs)
      rw [hl] at ih ⊢
      simp only [List.forall_mem_cons] at ih
      rw [if_neg (by simp [hx]), List.modifyHead_cons, List.forall_mem_cons]
      refine ⟨?_, ih.2⟩
      rw [List.mem_cons, not_or]
      exact ⟨fun h => hx h.symm, ih.1⟩

/-- The pieces of a text between separators hold characters of the text only. -/
theorem subset_of_mem_splitOn (c : Char) (s : List Char) : ∀ l ∈ s.splitOn c, l ⊆ s := by
  induction s with
  | nil => simp [List.splitOn]
  | cons x xs ih =>
    rw [List.splitOn, List.splitOnP_cons_eq_if_modifyHead]
    rw [List.splitOn] at ih
    by_cases hx : x = c
    · rw [if_pos (by simpa using hx), List.forall_mem_cons]
      exact ⟨List.nil_subset _, fun l hl => List.subset_cons_of_subset x (ih l hl)⟩
    · obtain ⟨l, ls, hl⟩ := List.exists_cons_of_ne_nil (List.splitOnP_ne_nil (· == c) xs)
      rw [hl, List.forall_mem_cons] at ih
      rw [hl, if_neg (by simpa using hx), List.modifyHead_cons, List.forall_mem_cons]
      exact ⟨List.cons_subset_cons x ih.1, fun l hl => List.subset_cons_of_subset x (ih.2 l hl)⟩

/-- What is read from a text has parts that can be read again. -/
theorem isPart_ofString (s : String) : ∀ x ∈ (ofString s).parts, IsPart x := by
  intro x hx
  rw [ofString, partsOfChars, List.mem_map] at hx
  obtain ⟨l, hl, rfl⟩ := hx
  rw [List.mem_filter] at hl
  obtain ⟨hl, hp⟩ := hl
  simp only [ne_eq, decide_eq_true_eq] at hp
  refine ⟨fun hc => hp.1 ?_, fun hc => hp.2 ?_, ?_⟩
  · simpa using congrArg String.toList hc
  · simpa using congrArg String.toList hc
  · rw [String.toList_ofList]
    exact not_mem_of_mem_splitOn '/' s.toList l hl

/-- What lies below a path that was joined to another one lies below that one along parts that can be read back. -/
theorem isPart_of_below_join {base joined : Path} {below names : List String} (hjoined : ∀ x ∈ joined.parts, IsPart x)
    (hbelow : ∀ x ∈ below, IsPart x) (h : (base.join joined).below below = base.below names) : ∀ x ∈ names, IsPart x := by
  have hall : ∀ x ∈ joined.parts ++ below, IsPart x := by
    intro x hx
    exact (List.mem_append.1 hx).elim (hjoined x) (hbelow x)
  intro x hx
  apply hall
  by_cases ha : joined.anchor = .relative
  · rw [join_relative ha, below_below, below_inj] at h
    rwa [h]
  · rw [join_anchored ha] at h
    rw [← below_parts, h]
    exact List.mem_append_right _ hx

end Path

/-- The location of an anchored path under a root leads from the root back to the path. -/
theorem join_relativeLocation {p root : Path} (ha : p.anchor ≠ .relative) (h : ∀ x ∈ p.parts, IsPart x) :
    root.join (Path.ofString (relativeLocation p root)) = p := by
  unfold relativeLocation
  split
  · rename_i r hr
    obtain ⟨hra, hp⟩ := Path.relativeTo?_eq_some hr
    have hparts : ∀ x ∈ r.parts, IsPart x := by
      intro x hx
      apply h
      rw [hp]
      exact List.mem_append_right _ hx
    rw [Path.ofString_text hparts, Path.join_relative hra, ← hp]
  · rw [Path.ofString_text h, Path.join_anchored ha]

end WorkspaceLint
