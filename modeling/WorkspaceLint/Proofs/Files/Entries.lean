import WorkspaceLint.Proofs.Files.Reach

/-!
# Entries

What stands at a path itself, a link at its end not followed (`lstat?`). Whether something stands there is a matter of the names
alone (`HasEntry`); it is found by its path when the path is not too long (`exists_lstat?_iff`). Everything that a walk reaches
has an entry, also a link that leads nowhere.
-/

namespace WorkspaceLint.Files.FileSystem

variable {fs : FileSystem}

/-- What stands at a path, when a link at its end is not followed. -/
def lstat? (fs : FileSystem) (path : Path) : Except Fault Node := (fs.find? path false).map (·.node)

/-- The names of a path lead to an entry, however long the path is written. -/
def HasEntry (fs : FileSystem) (path : Path) : Prop := ∃ r, fs.walk false maxLinks [] path.parts = .ok r

theorem lstat?_eq (fs : FileSystem) (path : Path) :
    fs.lstat? path = if pathBytesLimit ≤ path.text.utf8ByteSize then .error .nameTooLong
      else (fs.walk false maxLinks [] path.parts).map (·.node) := by
  rw [lstat?, find?]
  split
  · rfl
  · rfl

/-- An entry is found by its path when the path is not too long. -/
theorem exists_lstat?_iff {path : Path} :
    (∃ n, fs.lstat? path = .ok n) ↔ fs.HasEntry path ∧ path.text.utf8ByteSize < pathBytesLimit := by
  rw [lstat?_eq, HasEntry]
  by_cases hlong : pathBytesLimit ≤ path.text.utf8ByteSize
  · rw [if_pos hlong]
    constructor
    · rintro ⟨n, h⟩
      nomatch h
    · rintro ⟨-, hshort⟩
      exact absurd hlong (Nat.not_le.2 hshort)
  · rw [if_neg hlong]
    cases fs.walk false maxLinks [] path.parts with
    | error fault => simp [Except.map]
    | ok r => simpa [Except.map] using hlong

/-- An entry of a directory stands at its own place, a link too. -/
theorem walk_entry {k : Nat} {p : List String} {es : List (String × Node)} {name : String} {n : Node}
    (hp : fs.at? p = some (.dir es)) (hs : IsStep name) (hl : es.lookup name = some n) :
    fs.walk false k p [name] = .ok ⟨p ++ [name], n⟩ := by
  have hreal : n.target? = none → fs.walk false k p [name] = .ok ⟨p ++ [name], n⟩ := by
    intro ht
    rw [walk_step hp hs hl ht, walk_nil, at?_concat hp, hl]
  cases n with
  | file _ => exact hreal rfl
  | dir _ => exact hreal rfl
  | link target =>
    have hlen : ¬maxNameBytes < name.utf8ByteSize := Nat.not_lt.2 hs.2.2
    cases k <;> simp [walk, walkNames, hp, hs.1, hs.2.1, hlen, hl]

/-- The entries of the directory that a path leads to are found below the path. -/
theorem hasEntry_child {path : Path} {r : Found} {es : List (String × Node)} {name : String} {n : Node}
    (h : fs.route path = .ok r) (hr : r.node = .dir es) (hs : IsStep name) (hl : es.lookup name = some n) :
    fs.HasEntry (path.child name) := by
  obtain ⟨k, -, he⟩ := walk_append false maxLinks h
  have hat : fs.at? r.position = some (.dir es) := (route_spec h).1.trans (congrArg some hr)
  refine ⟨⟨r.position ++ [name], n⟩, ?_⟩
  rw [Path.child_eq_below, Path.below_parts, he [name] (Or.inr (List.cons_ne_nil _ _))]
  exact walk_entry hat hs hl

/-- What stands at a position is found under it. -/
theorem hasEntry_of_at? (hw : fs.WellFormed) {position : List String} {n : Node} (h : fs.at? position = some n) :
    fs.HasEntry (.absolute position) := by
  rcases List.eq_nil_or_concat position with rfl | ⟨place, name, rfl⟩
  · exact ⟨⟨[], fs.root⟩, by rw [Path.absolute, walk_nil]; rfl⟩
  · rw [List.concat_eq_append] at h ⊢
    obtain ⟨es, hes⟩ := Node.at?_dropLast (List.append_ne_nil_of_right_ne_nil place (List.cons_ne_nil name [])) h
    rw [List.dropLast_concat] at hes
    have hl : es.lookup name = some n := (Node.at?_concat hes name).symm.trans h
    have hname : IsStep name := hw.isStep h name (by simp)
    exact hasEntry_child (hw.route_absolute hes rfl) rfl hname hl

/-! ## What is reached -/

/-- What something in a directory that is reached leads to is an entry there. -/
theorem Reaches.hasEntry (hw : fs.WellFormed) {keep : String → Bool} {root directory : Path} {es : List (String × Node)}
    (h : fs.Reaches keep root directory es) {kind : Node → Bool} {name : String} (hs : IsStep name)
    (hl : fs.leadsTo kind (directory.child name) = .ok true) : fs.HasEntry (directory.child name) := by
  obtain ⟨n, -, hn, -⟩ := h.lookup_of_leadsTo hw hs hl
  obtain ⟨q, hr⟩ := h.route hw
  exact hasEntry_child hr rfl hs hn

/-- A file that is reached is not what it is reached from. -/
theorem ReachesFile.ne_nil {keep : String → Bool} {root : Path} {names : List String}
    (h : fs.ReachesFile keep root (root.below names)) : names ≠ [] := by
  obtain ⟨directory, es, name, n, ⟨⟨m, way, -, -, -, rfl⟩, -⟩, -, -, hpath⟩ := h
  rw [Path.below_child, Path.below_inj] at hpath
  rw [hpath]
  exact List.append_ne_nil_of_right_ne_nil way (List.cons_ne_nil name [])

/-- A file that is reached is an entry, whatever a link leads to. -/
theorem ReachesFile.hasEntry (hw : fs.WellFormed) {keep : String → Bool} {root path : Path}
    (h : fs.ReachesFile keep root path) : fs.HasEntry path := by
  obtain ⟨directory, es, name, n, hreach, hn, -, rfl⟩ := h
  obtain ⟨q, hr⟩ := hreach.route hw
  exact hasEntry_child hr rfl ((hreach.wellFormed hw).entry (Node.mem_of_lookup hn)).1.isStep hn

end WorkspaceLint.Files.FileSystem
