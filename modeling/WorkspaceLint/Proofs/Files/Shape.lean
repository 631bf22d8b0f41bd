import WorkspaceLint.Files.Reading
import WorkspaceLint.Files.Walk
import WorkspaceLint.Proofs.Files.Canonical

/-!
# File systems of one shape

Two file systems have one shape when the same kind of node stands at every position: files stand where files stand, whatever
octets they hold, links have the same targets, and directories hold the same names, in whatever order. Every look-up asks for the
shape only: it succeeds or fails in both alike, at the same position. Only the octets of a file are left to differ.
-/

namespace WorkspaceLint.Files

/-- The same kind of node stands at every position of two file systems. -/
structure SameShape (fs fs' : FileSystem) : Prop where
  /-- The same kind of node stands at every position. -/
  kinds : ∀ q, fs.kind? q = fs'.kind? q
  /-- There are as many links. -/
  links : fs.root.linkCount = fs'.root.linkCount

namespace Node

/-- A node of the kind of a file is a file. -/
theorem eq_file_of_kind {n : Node} (h : n.kind = .file) : ∃ content, n = .file content := by
  cases n with
  | file content => exact ⟨content, rfl⟩
  | link _ => nomatch h
  | dir _ => nomatch h

/-- A node of the kind of a link is a link with the same target. -/
theorem eq_link_of_kind {n : Node} {t : String} (h : n.kind = .link t) : n = .link t := by
  cases n with
  | link _ =>
    cases h
    rfl
  | file _ => nomatch h
  | dir _ => nomatch h

/-- A node of the kind of a directory is a directory. -/
theorem eq_dir_of_kind {n : Node} (h : n.kind = .dir) : ∃ es, n = .dir es := by
  cases n with
  | dir es => exact ⟨es, rfl⟩
  | file _ => nomatch h
  | link _ => nomatch h

/-- Nodes of one kind are directories both or neither. -/
theorem isDir_of_kind {n m : Node} (h : n.kind = m.kind) : n.isDir = m.isDir := by
  cases n <;> cases m <;> first | rfl | nomatch h

/-- Nodes of one kind are files both or neither. -/
theorem isFile_of_kind {n m : Node} (h : n.kind = m.kind) : n.isFile = m.isFile := by
  cases n <;> cases m <;> first | rfl | nomatch h

/-- Nodes of one kind are links with the same target both or neither. -/
theorem target?_of_kind {n m : Node} (h : n.kind = m.kind) : n.target? = m.target? := by
  cases n <;> cases m <;> first | rfl | (cases h; rfl) | nomatch h

/-- Two lists of entries hold nodes of the same kind under a name, or none. -/
theorem lookup_of_kinds {es es' : List (String × Node)} {name : String}
    (h : (es.lookup name).map kind = (es'.lookup name).map kind) :
    (es.lookup name = none ∧ es'.lookup name = none) ∨
      ∃ n n', es.lookup name = some n ∧ es'.lookup name = some n' ∧ n'.kind = n.kind := by
  cases hn : es.lookup name with
  | none =>
    rw [hn, Option.map_none, eq_comm, Option.map_eq_none_iff] at h
    exact Or.inl ⟨rfl, h⟩
  | some n =>
    rw [hn, Option.map_some, eq_comm, Option.map_eq_some_iff] at h
    obtain ⟨n', hn', hk⟩ := h
    exact Or.inr ⟨n, n', rfl, hn', hk⟩

end Node

namespace SameShape

variable {fs fs' : FileSystem}

/-! ## Nodes -/

/-- Where something stands in one of them, something of the same kind stands in the other. -/
theorem at? (h : SameShape fs fs') {q : List String} {n : Node} (hn : fs.at? q = some n) :
    ∃ n', fs'.at? q = some n' ∧ n'.kind = n.kind := by
  have hk := h.kinds q
  rw [FileSystem.kind?, hn, Option.map_some, FileSystem.kind?, eq_comm, Option.map_eq_some_iff] at hk
  exact hk

theorem at?_none (h : SameShape fs fs') {q : List String} (hn : fs.at? q = none) : fs'.at? q = none := by
  have hk := h.kinds q
  rw [FileSystem.kind?, hn, Option.map_none, FileSystem.kind?, eq_comm, Option.map_eq_none_iff] at hk
  exact hk

/-- Directories at the same position hold entries of the same names and kinds. -/
theorem dir (h : SameShape fs fs') {q : List String} {es : List (String × Node)} (hq : fs.at? q = some (.dir es)) :
    ∃ es', fs'.at? q = some (.dir es') ∧ ∀ name, (es.lookup name).map Node.kind = (es'.lookup name).map Node.kind := by
  obtain ⟨n', hn', hk⟩ := h.at? hq
  obtain ⟨es', rfl⟩ := Node.eq_dir_of_kind hk
  refine ⟨es', hn', fun name => ?_⟩
  have hc := h.kinds (q ++ [name])
  rw [FileSystem.kind?, FileSystem.kind?, FileSystem.at?_concat hq, FileSystem.at?_concat hn'] at hc
  exact hc

/-- The same links stand in both. -/
theorem linkAt? (h : SameShape fs fs') : fs.linkAt? = fs'.linkAt? := by
  funext q
  rw [FileSystem.linkAt?, FileSystem.linkAt?]
  cases hq : fs.at? q with
  | none => rw [h.at?_none hq]
  | some n =>
    obtain ⟨n', hn', hk⟩ := h.at? hq
    rw [hn', Option.bind_some, Option.bind_some]
    exact (Node.target?_of_kind hk).symm

/-! ## Look-ups -/

section Names

variable {onLink onLink' : List String → String → List String → Except Fault Found}
  (ho : ∀ p t rest, (onLink p t rest).map Found.position = (onLink' p t rest).map Found.position)

include ho

/-- A name leads on from a directory to the same position in both, when the names after it do. -/
theorem walkNames_dir (h : SameShape fs fs') (followLast : Bool) {name : String} {p rest : List String}
    {es : List (String × Node)} (hp : fs.at? p = some (.dir es))
    (hrest : ∀ q, (fs.walkNames followLast onLink q rest).map Found.position =
      (fs'.walkNames followLast onLink' q rest).map Found.position) :
    (fs.walkNames followLast onLink p (name :: rest)).map Found.position =
      (fs'.walkNames followLast onLink' p (name :: rest)).map Found.position := by
  obtain ⟨es', hp', hl⟩ := h.dir hp
  rw [FileSystem.walkNames, hp, FileSystem.walkNames, hp']
  dsimp only
  by_cases hdot : name = "."
  · rw [if_pos hdot, if_pos hdot]
    exact hrest p
  rw [if_neg hdot, if_neg hdot]
  by_cases hup : name = ".."
  · rw [if_pos hup, if_pos hup]
    exact hrest p.dropLast
  rw [if_neg hup, if_neg hup]
  by_cases hlong : maxNameBytes < name.utf8ByteSize
  · rw [if_pos hlong, if_pos hlong]
  rw [if_neg hlong, if_neg hlong]
  obtain ⟨hn, hn'⟩ | ⟨n, n', hn, hn', hk⟩ := Node.lookup_of_kinds (hl name)
  · rw [hn, hn']
  rw [hn, hn']
  cases n with
  | file _ =>
    obtain ⟨_, rfl⟩ := Node.eq_file_of_kind hk
    exact hrest _
  | dir _ =>
    obtain ⟨_, rfl⟩ := Node.eq_dir_of_kind hk
    exact hrest _
  | link t =>
    obtain rfl := Node.eq_link_of_kind hk
    dsimp only
    split
    · rfl
    · exact ho p t rest

/-- A name leads on from a position to the same position in both, when the names after it do. -/
theorem walkNames_cons (h : SameShape fs fs') (followLast : Bool) {name : String} {rest : List String}
    (hrest : ∀ q, (fs.walkNames followLast onLink q rest).map Found.position =
      (fs'.walkNames followLast onLink' q rest).map Found.position) (p : List String) :
    (fs.walkNames followLast onLink p (name :: rest)).map Found.position =
      (fs'.walkNames followLast onLink' p (name :: rest)).map Found.position := by
  cases hp : fs.at? p with
  | none => rw [FileSystem.walkNames, hp, FileSystem.walkNames, h.at?_none hp]
  | some n =>
    obtain ⟨n', hn', hk⟩ := h.at? hp
    cases n with
    | dir es => exact h.walkNames_dir ho followLast hp hrest
    | file _ =>
      obtain ⟨_, rfl⟩ := Node.eq_file_of_kind hk
      rw [FileSystem.walkNames, hp, FileSystem.walkNames, hn']
    | link _ =>
      obtain rfl := Node.eq_link_of_kind hk
      rw [FileSystem.walkNames, hp, FileSystem.walkNames, hn']

/-- Where names lead is the same in both when it is the same behind links. -/
theorem walkNames (h : SameShape fs fs') (followLast : Bool) (names : List String) :
    ∀ p, (fs.walkNames followLast onLink p names).map Found.position =
      (fs'.walkNames followLast onLink' p names).map Found.position := by
  induction names with
  | nil =>
    intro p
    rw [FileSystem.walkNames, FileSystem.walkNames]
    cases hp : fs.at? p with
    | none => rw [h.at?_none hp]
    | some n =>
      obtain ⟨n', hn', -⟩ := h.at? hp
      rw [hn']
      rfl
  | cons name rest ih => exact h.walkNames_cons ho followLast ih

end Names

/-- Names lead to the same position, or fail to lead anywhere for the same reason. -/
theorem walk (h : SameShape fs fs') (followLast : Bool) (k : Nat) : ∀ p names,
    (fs.walk followLast k p names).map Found.position = (fs'.walk followLast k p names).map Found.position := by
  induction k with
  | zero => exact fun p names => h.walkNames (fun _ _ _ => rfl) followLast names p
  | succ k ih => exact fun p names => h.walkNames (fun _ _ _ => ih _ _) followLast names p

theorem find? (h : SameShape fs fs') (path : Path) (followLast : Bool) :
    (fs.find? path followLast).map Found.position = (fs'.find? path followLast).map Found.position := by
  rw [FileSystem.find?, FileSystem.find?]
  split
  · rfl
  · exact h.walk followLast maxLinks [] path.parts

/-- A path that leads somewhere in one of them leads there in the other, to a node of the same kind. -/
theorem find?_ok (h : SameShape fs fs') {path : Path} {r : Found} (hr : fs.find? path true = .ok r) :
    ∃ n', fs'.find? path true = .ok ⟨r.position, n'⟩ ∧ n'.kind = r.node.kind := by
  have hp := h.find? path true
  rw [hr] at hp
  cases hr' : fs'.find? path true with
  | error e => rw [hr'] at hp; nomatch hp
  | ok r' =>
    rw [hr'] at hp
    have hpos : r.position = r'.position := Except.ok.inj hp
    obtain ⟨hn, -, -⟩ := FileSystem.route_spec (FileSystem.find?_eq_ok.1 hr).2
    obtain ⟨hn', -, -⟩ := FileSystem.route_spec (FileSystem.find?_eq_ok.1 hr').2
    obtain ⟨m, hm, hk⟩ := h.at? hn
    rw [hpos] at hm ⊢
    rw [hn'] at hm
    cases hm
    exact ⟨r'.node, rfl, hk⟩

theorem find?_error (h : SameShape fs fs') {path : Path} {e : Fault} (he : fs.find? path true = .error e) :
    fs'.find? path true = .error e := by
  have hp := h.find? path true
  rw [he] at hp
  cases hr' : fs'.find? path true with
  | ok r' => rw [hr'] at hp; nomatch hp
  | error e' =>
    rw [hr'] at hp
    cases hp
    rfl

/-- A path leads to nodes of the same kind in both, or fails to lead anywhere for the same reason. -/
theorem stat? (h : SameShape fs fs') (path : Path) :
    (∃ e, fs.stat? path = .error e ∧ fs'.stat? path = .error e) ∨
      ∃ n n', fs.stat? path = .ok n ∧ fs'.stat? path = .ok n' ∧ n'.kind = n.kind := by
  rw [FileSystem.stat?, FileSystem.stat?]
  cases hr : fs.find? path true with
  | error e =>
    rw [h.find?_error hr]
    exact Or.inl ⟨e, rfl, rfl⟩
  | ok r =>
    obtain ⟨n', hn', hk⟩ := h.find?_ok hr
    rw [hn']
    exact Or.inr ⟨r.node, n', rfl, rfl, hk⟩

/-- A test of the kind of a node gives the same for the nodes that a path leads to. -/
theorem leadsTo (h : SameShape fs fs') {test : Node → Bool} (ht : ∀ n m : Node, n.kind = m.kind → test n = test m) :
    fs.leadsTo test = fs'.leadsTo test := by
  funext path
  rw [FileSystem.leadsTo, FileSystem.leadsTo]
  split
  · rfl
  · obtain ⟨e, he, he'⟩ | ⟨n, n', hn, hn', hk⟩ := h.stat? path
    · rw [he, he']
    · rw [hn, hn']
      exact congrArg Except.ok (ht n n' hk.symm)

theorem exists? (h : SameShape fs fs') : fs.exists? = fs'.exists? := h.leadsTo fun _ _ _ => rfl

theorem isDir? (h : SameShape fs fs') : fs.isDir? = fs'.isDir? := h.leadsTo fun _ _ => Node.isDir_of_kind

theorem isFile? (h : SameShape fs fs') : fs.isFile? = fs'.isFile? := h.leadsTo fun _ _ => Node.isFile_of_kind

/-- Entries of one kind are or lead to directories both or neither. -/
theorem leadsToDir (h : SameShape fs fs') (path : Path) (name : String) {n n' : Node} (hk : n'.kind = n.kind) :
    fs.leadsToDir path name n = fs'.leadsToDir path name n' := by
  cases n with
  | file _ =>
    obtain ⟨_, rfl⟩ := Node.eq_file_of_kind hk
    rfl
  | dir _ =>
    obtain ⟨_, rfl⟩ := Node.eq_dir_of_kind hk
    rfl
  | link _ =>
    obtain rfl := Node.eq_link_of_kind hk
    rw [FileSystem.leadsToDir, FileSystem.leadsToDir]
    obtain ⟨e, he, he'⟩ | ⟨m, m', hm, hm', hk'⟩ := h.stat? (path.child name)
    · rw [he, he']
    · rw [hm, hm']
      exact Node.isDir_of_kind hk'.symm

/-! ## Canonical paths -/

theorem canonicalNames (h : SameShape fs fs') (onLink : List String → String → String → Except (List String) (List String))
    (names : List String) : ∀ p, fs.canonicalNames onLink p names = fs'.canonicalNames onLink p names := by
  induction names with
  | nil => exact fun _ => rfl
  | cons name rest ih =>
    intro p
    simp only [FileSystem.canonicalNames, h.linkAt?, ih]

theorem canonicalFrom (h : SameShape fs fs') (b : Nat) : ∀ pending p names,
    fs.canonicalFrom b pending p names = fs'.canonicalFrom b pending p names := by
  induction b with
  | zero => exact fun pending p names => h.canonicalNames _ names p
  | succ b ih =>
    intro pending p names
    rw [FileSystem.canonicalFrom, FileSystem.canonicalFrom, h.canonicalNames]
    simp only [ih]

theorem canonicalPosition (h : SameShape fs fs') (path : Path) : fs.canonicalPosition path = fs'.canonicalPosition path := by
  rw [FileSystem.canonicalPosition, FileSystem.canonicalPosition, h.links, h.canonicalFrom]

/-- A path has the same canonical path in both, or none in either. -/
theorem resolve (h : SameShape fs fs') : fs.resolve = fs'.resolve := by
  funext path
  rw [FileSystem.resolve, FileSystem.resolve, h.canonicalPosition]
  split
  · rfl
  · dsimp only
    obtain ⟨e, he, he'⟩ | ⟨n, n', hn, hn', -⟩ := h.stat? (.absolute (fs'.canonicalPosition path))
    · rw [he, he']
    · rw [hn, hn']

/-! ## Octets -/

/-- A path leads to the same octets in both when the file it leads to holds the same in both. -/
theorem octets? (h : SameShape fs fs') {path : Path}
    (hc : ∀ r, fs.find? path true = .ok r → fs.content? r.position = fs'.content? r.position) :
    fs.octets? path = fs'.octets? path := by
  rw [FileSystem.octets?, FileSystem.octets?, FileSystem.stat?, FileSystem.stat?]
  cases hr : fs.find? path true with
  | error e => rw [h.find?_error hr]
  | ok r =>
    obtain ⟨n', hn', hk⟩ := h.find?_ok hr
    have hcr := hc r hr
    obtain ⟨hn, -, -⟩ := FileSystem.route_spec (FileSystem.find?_eq_ok.1 hr).2
    obtain ⟨hm, -, -⟩ := FileSystem.route_spec (FileSystem.find?_eq_ok.1 hn').2
    rw [FileSystem.content?, hn, FileSystem.content?, hm] at hcr
    obtain ⟨q, n⟩ := r
    rw [hn']
    cases n with
    | file b =>
      obtain ⟨b', rfl⟩ := Node.eq_file_of_kind hk
      cases hcr
      rfl
    | link _ =>
      obtain rfl := Node.eq_link_of_kind hk
      rfl
    | dir _ =>
      obtain ⟨_, rfl⟩ := Node.eq_dir_of_kind hk
      rfl

theorem text? (h : SameShape fs fs') {path : Path}
    (hc : ∀ r, fs.find? path true = .ok r → fs.content? r.position = fs'.content? r.position) :
    fs.text? path = fs'.text? path := by
  rw [FileSystem.text?, FileSystem.text?, h.octets? hc]

end SameShape

end WorkspaceLint.Files
