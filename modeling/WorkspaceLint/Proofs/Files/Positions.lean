import WorkspaceLint.Files.Node
import WorkspaceLint.Proofs.Path

/-!
# Positions in a tree

What stands at a position of a tree, seen through the names that lead there. In a well-formed tree the entry of a name is the
only one of that name, so positions and entries say the same, and every name on the way is an entry name. `NodeKind` is what a
node is when neither the octets of files nor the entries of directories are looked at.
-/

namespace WorkspaceLint.Files

/-- What a node is: a file, a link with its target, or a directory. -/
inductive NodeKind where
  /-- A file. -/
  | file
  /-- A symbolic link with its target. -/
  | link (target : String)
  /-- A directory. -/
  | dir
deriving DecidableEq

/-- The name may be walked: it is no dot name and not too long. -/
def IsStep (name : String) : Prop := name ≠ "." ∧ name ≠ ".." ∧ name.utf8ByteSize ≤ 255

theorem IsEntryName.isStep {name : String} (h : IsEntryName name) : IsStep name :=
  ⟨h.2.1, h.2.2.1, h.2.2.2.2.2⟩

theorem IsEntryName.isPart {name : String} (h : IsEntryName name) : IsPart name := ⟨h.1, h.2.1, h.2.2.2.1⟩

/-- No null character stands in a path along names of entries. -/
theorem nul_not_mem_absolute {place : List String} (h : ∀ x ∈ place, IsEntryName x) :
    '\x00' ∉ (Path.absolute place).text.toList :=
  Path.nul_not_mem_text.2 fun x hx => (h x hx).2.2.2.2.1

/-- The location of a path along names of entries leads back to it. -/
theorem join_location_absolute {place : List String} (h : ∀ x ∈ place, IsEntryName x) (root : Path) :
    root.join (Path.ofString (relativeLocation (.absolute place) root)) = .absolute place :=
  join_relativeLocation (by exact nofun) fun x hx => (h x hx).isPart

namespace Node

/-- What a node is. -/
def kind : Node → NodeKind
  | .file _ => .file
  | .link t => .link t
  | .dir _ => .dir

/-- The octets of a file. -/
def content? : Node → Option (List UInt8)
  | .file content => some content
  | _ => none

/-! ## Positions -/

@[simp] theorem at?_nil (n : Node) : n.at? [] = some n := rfl

theorem at?_cons (n : Node) (name : String) (rest : List String) :
    n.at? (name :: rest) = (n.child? name).bind (·.at? rest) := rfl

@[simp] theorem child?_dir (es : List (String × Node)) (name : String) : (Node.dir es).child? name = es.lookup name := rfl

/-- A node with a child is a directory. -/
theorem eq_dir_of_child? {n c : Node} {name : String} (h : n.child? name = some c) : ∃ es, n = .dir es := by
  cases n with
  | dir es => exact ⟨es, rfl⟩
  | file _ => simp [child?, entries] at h
  | link _ => simp [child?, entries] at h

/-- A node with something below it is a directory. -/
theorem eq_dir_of_at?_cons {n m : Node} {name : String} {rest : List String} (h : n.at? (name :: rest) = some m) :
    ∃ es c, n = .dir es ∧ es.lookup name = some c ∧ c.at? rest = some m := by
  rw [at?_cons, Option.bind_eq_some_iff] at h
  obtain ⟨c, hc, hm⟩ := h
  obtain ⟨es, rfl⟩ := eq_dir_of_child? hc
  exact ⟨es, c, rfl, hc, hm⟩

theorem at?_append (n : Node) (p q : List String) : n.at? (p ++ q) = (n.at? p).bind (·.at? q) := by
  induction p generalizing n with
  | nil => simp
  | cons name rest ih =>
    rw [List.cons_append, at?_cons, at?_cons]
    cases n.child? name with
    | none => rfl
    | some c => exact ih c

/-- The entry of a directory at a position. -/
theorem at?_concat {n : Node} {p : List String} {es : List (String × Node)} (h : n.at? p = some (.dir es)) (name : String) :
    n.at? (p ++ [name]) = es.lookup name := by
  rw [at?_append, h, Option.bind_some, at?_cons, child?_dir]
  cases es.lookup name <;> rfl

/-- What lies on the way to a node is a directory. -/
theorem at?_dropLast {n m : Node} {p : List String} (hp : p ≠ []) (h : n.at? p = some m) :
    ∃ es, n.at? p.dropLast = some (.dir es) := by
  rw [← List.dropLast_concat_getLast hp, at?_append, Option.bind_eq_some_iff] at h
  obtain ⟨d, hd, hm⟩ := h
  obtain ⟨es, c, rfl, -, -⟩ := eq_dir_of_at?_cons hm
  exact ⟨es, hd⟩

/-! ## Well-formed trees -/

theorem mem_of_lookup {es : List (String × Node)} {name : String} {n : Node} (h : es.lookup name = some n) :
    (name, n) ∈ es := by
  obtain ⟨l₁, l₂, rfl, -⟩ := List.lookup_eq_some_iff.1 h
  simp

theorem entriesWellFormed_iff (es : List (String × Node)) :
    EntriesWellFormed es ↔ ∀ e ∈ es, IsEntryName e.1 ∧ e.2.WellFormed := by
  induction es with
  | nil => simp [EntriesWellFormed]
  | cons e rest ih => simp [EntriesWellFormed, ih, and_assoc]

theorem wellFormed_dir (es : List (String × Node)) :
    (Node.dir es).WellFormed ↔ (es.map (·.1)).Nodup ∧ ∀ e ∈ es, IsEntryName e.1 ∧ e.2.WellFormed := by
  rw [WellFormed, entriesWellFormed_iff]

/-- In a well-formed directory an entry is found under its name. -/
theorem WellFormed.lookup {es : List (String × Node)} (h : (Node.dir es).WellFormed) {name : String} {n : Node}
    (hm : (name, n) ∈ es) : es.lookup name = some n := by
  have hd := ((wellFormed_dir es).1 h).1
  clear h
  induction es with
  | nil => simp at hm
  | cons e rest ih =>
    rw [List.map_cons, List.nodup_cons] at hd
    rcases List.mem_cons.1 hm with rfl | hm
    · simp
    · have hne : name ≠ e.1 := by
        rintro rfl
        exact hd.1 (List.mem_map.2 ⟨_, hm, rfl⟩)
      rw [List.lookup_cons]
      simp only [beq_eq_false_iff_ne.2 hne]
      exact ih hm hd.2

theorem WellFormed.mem_iff_lookup {es : List (String × Node)} (h : (Node.dir es).WellFormed) {name : String} {n : Node} :
    (name, n) ∈ es ↔ es.lookup name = some n :=
  ⟨h.lookup, mem_of_lookup⟩

theorem WellFormed.entry {es : List (String × Node)} (h : (Node.dir es).WellFormed) {name : String} {n : Node}
    (hm : (name, n) ∈ es) : IsEntryName name ∧ n.WellFormed :=
  ((wellFormed_dir es).1 h).2 (name, n) hm

/-- What a well-formed tree holds is well formed, and the names that lead there are entry names. -/
theorem WellFormed.below {n m : Node} {q : List String} (h : n.WellFormed) (hq : n.at? q = some m) :
    m.WellFormed ∧ ∀ x ∈ q, IsEntryName x := by
  induction q generalizing n with
  | nil =>
    cases hq
    exact ⟨h, by simp⟩
  | cons name rest ih =>
    obtain ⟨es, c, rfl, hc, hm⟩ := eq_dir_of_at?_cons hq
    obtain ⟨hname, hcw⟩ := h.entry (mem_of_lookup hc)
    obtain ⟨hmw, hrest⟩ := ih hcw hm
    refine ⟨hmw, fun x hx => ?_⟩
    rcases List.mem_cons.1 hx with rfl | hx
    · exact hname
    · exact hrest x hx

end Node

/-! ## Deciding well-formedness -/

instance (name : String) : Decidable (IsEntryName name) :=
  inferInstanceAs (Decidable (_ ∧ _ ∧ _ ∧ _ ∧ _ ∧ _))

mutual

/-- Whether a tree is well formed can be decided. -/
def Node.decideWellFormed : (n : Node) → Decidable n.WellFormed
  | .file _ => isTrue trivial
  | .link t => inferInstanceAs (Decidable (t ≠ "" ∧ '\x00' ∉ t.toList))
  | .dir es =>
    have := Node.decideEntriesWellFormed es
    inferInstanceAs (Decidable ((es.map (·.1)).Nodup ∧ Node.EntriesWellFormed es))

/-- Whether entries are well formed can be decided. -/
def Node.decideEntriesWellFormed : (es : List (String × Node)) → Decidable (Node.EntriesWellFormed es)
  | [] => isTrue trivial
  | (name, n) :: rest =>
    have := Node.decideWellFormed n
    have := Node.decideEntriesWellFormed rest
    inferInstanceAs (Decidable (IsEntryName name ∧ n.WellFormed ∧ Node.EntriesWellFormed rest))

end

instance (fs : FileSystem) : Decidable fs.WellFormed := Node.decideWellFormed fs.root

namespace FileSystem

/-- What stands at a position. -/
def kind? (fs : FileSystem) (position : List String) : Option NodeKind := (fs.at? position).map Node.kind

/-- The octets of the file at a position. -/
def content? (fs : FileSystem) (position : List String) : Option (List UInt8) := (fs.at? position).bind Node.content?

@[simp] theorem at?_nil (fs : FileSystem) : fs.at? [] = some fs.root := rfl

theorem at?_append (fs : FileSystem) (p q : List String) : fs.at? (p ++ q) = (fs.at? p).bind (·.at? q) :=
  Node.at?_append _ p q

theorem at?_concat {fs : FileSystem} {p : List String} {es : List (String × Node)} (h : fs.at? p = some (.dir es))
    (name : String) : fs.at? (p ++ [name]) = es.lookup name :=
  Node.at?_concat h name

/-- The names to anything in a well-formed file system may be walked. -/
theorem WellFormed.isStep {fs : FileSystem} (h : fs.WellFormed) {q : List String} {n : Node} (hq : fs.at? q = some n) :
    ∀ x ∈ q, IsStep x :=
  fun x hx => ((Node.WellFormed.below h hq).2 x hx).isStep

end FileSystem

end WorkspaceLint.Files
