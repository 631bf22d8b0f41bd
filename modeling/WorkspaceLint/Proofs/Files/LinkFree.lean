import WorkspaceLint.Proofs.Files.Contents
import WorkspaceLint.Proofs.Files.Reach

/-!
# File systems without links

Where no link stands anywhere a path leads to what stands where it is written (`NoLinks.at?_of_stat?`), and its canonical path takes
back what double dots take back and nothing more (`NoLinks.resolve_eq`).
-/

namespace WorkspaceLint.Files

namespace Node

/-- What stands in a tree holds no more links than the tree. -/
theorem linkCount_le_of_lookup {es : List (String × Node)} {name : String} {n : Node} (h : es.lookup name = some n) :
    n.linkCount ≤ entriesLinkCount es := by
  induction es with
  | nil => nomatch h
  | cons e rest ih =>
    obtain ⟨k, m⟩ := e
    rw [entriesLinkCount]
    by_cases hk : k = name
    · subst hk
      rw [lookup_cons_self] at h
      cases h
      exact Nat.le_add_right _ _
    · rw [lookup_cons_ne (Ne.symm hk)] at h
      exact Nat.le_trans (ih h) (Nat.le_add_left _ _)

theorem linkCount_of_mem {es : List (String × Node)} (h : entriesLinkCount es = 0) : ∀ e ∈ es, e.2.linkCount = 0 := by
  induction es with
  | nil => simp
  | cons e rest ih =>
    obtain ⟨k, m⟩ := e
    rw [entriesLinkCount, Nat.add_eq_zero_iff] at h
    rw [List.forall_mem_cons]
    exact ⟨h.1, ih h.2⟩

theorem linkCount_le_of_at? {names : List String} : ∀ {n m : Node}, n.at? names = some m → m.linkCount ≤ n.linkCount := by
  induction names with
  | nil =>
    intro n m h
    cases h
    exact Nat.le_refl _
  | cons name rest ih =>
    intro n m h
    obtain ⟨es, c, rfl, hc, hrest⟩ := eq_dir_of_at?_cons h
    exact Nat.le_trans (ih hrest) (linkCount_le_of_lookup hc)

end Node

/-! ## Double dots -/

/-- Without dot names nothing is taken back. -/
theorem collapseOnto_eq_append {names : List String} : ∀ {p : List String}, (∀ x ∈ names, x ≠ "." ∧ x ≠ "..") →
    collapseOnto p names = p ++ names := by
  induction names with
  | nil => exact fun _ => (List.append_nil _).symm
  | cons name rest ih =>
    intro p hn
    rw [List.forall_mem_cons] at hn
    rw [collapseOnto, List.foldl_cons, if_neg hn.1.1, if_neg hn.1.2, ← collapseOnto, ih hn.2, List.append_assoc]
    rfl

theorem collapseNames_eq_self {names : List String} (h : ∀ x ∈ names, x ≠ "." ∧ x ≠ "..") : collapseNames names = names :=
  collapseOnto_eq_append (p := []) h

namespace FileSystem

/-- No link stands anywhere in a file system. -/
def NoLinks (fs : FileSystem) : Prop := ∀ p t, fs.at? p ≠ some (.link t)

variable {fs : FileSystem}

theorem noLinks_of_linkCount (h : fs.root.linkCount = 0) : fs.NoLinks := by
  intro p t hp
  have hmem := Node.mem_linkPositions hp
  rw [List.eq_nil_of_length_eq_zero ((Node.linkPositions_length fs.root).trans h)] at hmem
  nomatch hmem

/-- What stands in a file system without links holds none. -/
theorem linkCount_of_at? (h : fs.root.linkCount = 0) {p : List String} {n : Node} (hn : fs.at? p = some n) : n.linkCount = 0 :=
  Nat.le_zero.1 (h ▸ Node.linkCount_le_of_at? hn)

/-- Where no directory stands no name leads on. -/
theorem walkNames_cons_of_no_dir {p : List String} (hno : ∀ es, fs.at? p ≠ some (.dir es))
    {onLink : List String → String → List String → Except Fault Found} {name : String} {rest : List String} :
    fs.walkNames true onLink p (name :: rest) = .error .notDirectory := by
  rw [walkNames]
  split
  · exact absurd ‹_› (hno _)
  · rfl

namespace NoLinks

variable (h : fs.NoLinks)

include h

theorem target?_of_at? {p : List String} {n : Node} (hn : fs.at? p = some n) : n.target? = none := by
  cases n with
  | link t => exact absurd hn (h p t)
  | file _ => rfl
  | dir _ => rfl

theorem linkAt? (p : List String) : fs.linkAt? p = none := by
  rw [FileSystem.linkAt?, Option.bind_eq_none_iff]
  exact fun n hn => h.target?_of_at? hn

/-! ## Look-ups -/

/-- What a look-up does with the first of its names at a directory: it stays at a dot, goes back at a double dot, and otherwise goes
on below an entry of that name. -/
theorem walkNames_cons {p : List String} {es : List (String × Node)} (hp : fs.at? p = some (.dir es))
    (onLink : List String → String → List String → Except Fault Found) (name : String) (rest : List String) :
    fs.walkNames true onLink p (name :: rest) =
      if name = "." then fs.walkNames true onLink p rest
      else if name = ".." then fs.walkNames true onLink p.dropLast rest
      else if maxNameBytes < name.utf8ByteSize then .error .nameTooLong
      else if (es.lookup name).isSome then fs.walkNames true onLink (p ++ [name]) rest
      else .error .notFound := by
  rw [walkNames, hp]
  dsimp only
  cases hl : es.lookup name with
  | none => rfl
  | some n =>
    cases n with
    | link t => exact absurd ((at?_concat hp name).trans hl) (h _ t)
    | file _ => rfl
    | dir _ => rfl

/-- Names lead where they say, when none of them is a dot name. -/
theorem position_of_walk {k : Nat} {names : List String} : ∀ {p : List String} {r : Found}, (∀ x ∈ names, IsStep x) →
    fs.walk true k p names = .ok r → r.position = p ++ names := by
  induction names with
  | nil =>
    intro p r _ hr
    rw [walk_nil] at hr
    split at hr
    · cases hr
      exact (List.append_nil p).symm
    · nomatch hr
  | cons name rest ih =>
    intro p r hs hr
    rw [List.forall_mem_cons] at hs
    obtain ⟨es, hp, ⟨hdot, -⟩ | ⟨hup, -⟩ | ⟨-, -, hr⟩ | ⟨_, t, -, -, hl, -⟩⟩ := walk_cons_ok hr
    · exact absurd hdot hs.1.1
    · exact absurd hup hs.1.2.1
    · rw [ih hs.2 hr, List.append_assoc]
      rfl
    · exact absurd ((at?_concat hp name).trans hl) (h _ t)

/-- What a path without dot names leads to stands where it is written. -/
theorem at?_of_stat? {path : Path} {n : Node} (hs : ∀ x ∈ path.parts, IsStep x) (hn : fs.stat? path = .ok n) :
    fs.at? path.parts = some n := by
  obtain ⟨-, p, hr⟩ := stat?_eq_ok.1 hn
  have hp : p = path.parts := h.position_of_walk hs hr
  rw [← hp]
  exact (route_spec hr).1

/-- What is listed below a path stands where it is listed. -/
theorem exists_at?_of_mem_descendants (hw : fs.WellFormed) {path c : Path} (hs : ∀ x ∈ path.parts, IsStep x)
    (hc : c ∈ fs.descendants path) :
    ∃ names n, names ≠ [] ∧ fs.at? (path.parts ++ names) = some n ∧ c = path.below names := by
  rw [descendants, Node.mem_descendants_iff (hw.directoryAt path)] at hc
  obtain ⟨names, n, hne, hn, rfl⟩ := hc
  refine ⟨names, n, hne, ?_, rfl⟩
  rw [directoryAt] at hn
  split at hn
  · rename_i es hes
    rw [at?_append, h.at?_of_stat? hs hes]
    exact hn
  · obtain ⟨name, rest, rfl⟩ := List.exists_cons_of_ne_nil hne
    cases hn

/-- Too many links are never met. -/
theorem walkNames_ne_tooManyLinks {onLink : List String → String → List String → Except Fault Found} (names : List String) :
    ∀ p, fs.walkNames true onLink p names ≠ .error .tooManyLinks := by
  induction names with
  | nil =>
    intro p hr
    rw [walkNames] at hr
    split at hr <;> cases hr
  | cons name rest ih =>
    intro p hr
    by_cases hdir : ∃ es, fs.at? p = some (.dir es)
    · obtain ⟨es, hp⟩ := hdir
      rw [h.walkNames_cons hp] at hr
      split at hr
      · exact ih p hr
      · split at hr
        · exact ih _ hr
        · split at hr
          · cases hr
          · split at hr
            · exact ih _ hr
            · cases hr
    · rw [walkNames_cons_of_no_dir (not_exists.1 hdir)] at hr
      cases hr

theorem stat?_ne_tooManyLinks (path : Path) : fs.stat? path ≠ .error .tooManyLinks := by
  have hwalk : fs.walk true maxLinks [] path.parts ≠ .error .tooManyLinks := h.walkNames_ne_tooManyLinks path.parts []
  intro he
  rw [stat?, find?] at he
  split at he
  · cases he
  · cases hr : fs.walk true maxLinks [] path.parts with
    | ok r =>
      rw [hr] at he
      cases he
    | error e =>
      rw [hr] at he
      cases he
      exact hwalk hr

/-! ## Canonical paths -/

theorem canonicalNames (onLink : List String → String → String → Except (List String) (List String)) (names : List String) :
    ∀ p, fs.canonicalNames onLink p names = .ok (collapseOnto p names) := by
  induction names with
  | nil => exact fun _ => rfl
  | cons name rest ih =>
    intro p
    rw [FileSystem.canonicalNames, collapseOnto, List.foldl_cons, ← collapseOnto]
    by_cases hdot : name = "."
    · rw [if_pos hdot, if_pos hdot, ih]
    rw [if_neg hdot, if_neg hdot]
    by_cases hup : name = ".."
    · rw [if_pos hup, if_pos hup, ih]
    rw [if_neg hup, if_neg hup, h.linkAt?]
    exact ih _

/-- A canonical path takes back what double dots take back, and nothing more. -/
theorem resolve_eq (path : Path) : fs.resolve path =
    if path.text.toList.contains '\x00' then .error .nullCharacter else .ok (.absolute (collapseNames path.parts)) := by
  have hposition : fs.canonicalPosition path = collapseNames path.parts := by
    rw [canonicalPosition, canonicalFrom, h.canonicalNames]
    rfl
  rw [resolve, hposition]
  split
  · rfl
  · dsimp only
    split
    · rename_i hmany
      exact absurd hmany (h.stat?_ne_tooManyLinks _)
    · rfl

/-- A canonical path is canonical again. -/
theorem resolve_resolve {path found : Path} (hr : fs.resolve path = .ok found) : fs.resolve found = .ok found := by
  rw [h.resolve_eq] at hr
  split at hr
  · nomatch hr
  · rename_i hnul
    cases hr
    have hmem : ∀ x ∈ collapseNames path.parts, x ∈ path.parts ∧ x ≠ "." ∧ x ≠ ".." := fun x => mem_collapseNames
    have hfree : '\x00' ∉ (Path.absolute (collapseNames path.parts)).text.toList := by
      rw [List.contains_iff_mem, Path.nul_not_mem_text] at hnul
      rw [Path.nul_not_mem_text]
      exact fun x hx => hnul x (hmem x hx).1
    rw [h.resolve_eq, if_neg (by simpa using hfree)]
    exact congrArg (fun names => Except.ok (Path.absolute names)) (collapseNames_eq_self fun x hx => (hmem x hx).2)

end NoLinks

end FileSystem

end WorkspaceLint.Files
