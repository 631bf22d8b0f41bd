import WorkspaceLint.Files.Edit
import WorkspaceLint.ProjectFiles
import WorkspaceLint.Proofs.Files.Shape

/-!
# File systems that differ in what files hold

The outline of a tree is the tree with every file emptied. Two file systems of one outline have one shape, and as their
directories list the same entries in the same order, every walk through them gives the same list. `DifferOnlyAt` says that the
octets of one file are all that differs; whatever does not read that file is then the same in both.
-/

namespace WorkspaceLint.Files

mutual

/-- A tree with its files emptied. -/
def Node.outline : Node → Node
  | .file _ => .file []
  | .link t => .link t
  | .dir es => .dir (entriesOutline es)

/-- Entries with their files emptied. -/
def Node.entriesOutline : List (String × Node) → List (String × Node)
  | [] => []
  | (name, n) :: rest => (name, n.outline) :: entriesOutline rest

end

/-- Two file systems whose trees are the same when their files are emptied. -/
def SameOutline (fs fs' : FileSystem) : Prop := fs.root.outline = fs'.root.outline

/-- Two file systems that differ in the octets of the file at one position only. -/
structure DifferOnlyAt (position : List String) (fs fs' : FileSystem) : Prop where
  /-- They are the same when their files are emptied. -/
  outline : SameOutline fs fs'
  /-- Every other file holds the same octets. -/
  content : ∀ q, q ≠ position → fs.content? q = fs'.content? q

namespace Node

/-! ## Outlines -/

theorem lookup_entriesOutline (es : List (String × Node)) (name : String) :
    (entriesOutline es).lookup name = (es.lookup name).map outline := by
  induction es with
  | nil => rfl
  | cons e rest ih =>
    obtain ⟨k, m⟩ := e
    rw [entriesOutline, List.lookup_cons, List.lookup_cons, ih]
    cases name == k <;> rfl

theorem outline_child? (n : Node) (name : String) : n.outline.child? name = (n.child? name).map outline := by
  cases n with
  | dir es => exact lookup_entriesOutline es name
  | file _ => rfl
  | link _ => rfl

/-- What stands at a position of an outline is the outline of what stands there. -/
theorem outline_at? (q : List String) : ∀ n : Node, n.outline.at? q = (n.at? q).map outline := by
  induction q with
  | nil => exact fun _ => rfl
  | cons name rest ih =>
    intro n
    rw [at?_cons, at?_cons, outline_child?]
    cases n.child? name with
    | none => rfl
    | some c => exact ih c

@[simp] theorem outline_kind (n : Node) : n.outline.kind = n.kind := by
  cases n <;> rfl

/-- Nodes of one outline are of one kind. -/
theorem kind_of_outline {n m : Node} (h : n.outline = m.outline) : n.kind = m.kind := by
  rw [← outline_kind n, h, outline_kind]

mutual

theorem outline_linkCount : ∀ n : Node, n.outline.linkCount = n.linkCount
  | .file _ => rfl
  | .link _ => rfl
  | .dir es => entriesOutline_linkCount es

theorem entriesOutline_linkCount : ∀ es : List (String × Node), entriesLinkCount (entriesOutline es) = entriesLinkCount es
  | [] => rfl
  | (name, n) :: rest => by
    rw [entriesOutline, entriesLinkCount, entriesLinkCount, outline_linkCount n, entriesOutline_linkCount rest]

end

theorem entriesOutline_names (es : List (String × Node)) : (entriesOutline es).map (·.1) = es.map (·.1) := by
  induction es with
  | nil => rfl
  | cons e rest ih =>
    obtain ⟨name, n⟩ := e
    rw [entriesOutline, List.map_cons, List.map_cons, ih]

mutual

theorem outline_wellFormed : ∀ n : Node, n.outline.WellFormed ↔ n.WellFormed
  | .file _ => Iff.rfl
  | .link _ => Iff.rfl
  | .dir es => by
    rw [outline, WellFormed, WellFormed, entriesOutline_names, entriesOutline_wellFormed es]

theorem entriesOutline_wellFormed : ∀ es : List (String × Node),
    EntriesWellFormed (entriesOutline es) ↔ EntriesWellFormed es
  | [] => Iff.rfl
  | (name, n) :: rest => by
    rw [entriesOutline, EntriesWellFormed, EntriesWellFormed, outline_wellFormed n, entriesOutline_wellFormed rest]

end

/-- Nodes of one outline hold entries of the same names. -/
theorem names_of_outline {n m : Node} (h : n.outline = m.outline) : n.entries.map (·.1) = m.entries.map (·.1) := by
  have hnames : ∀ c : Node, c.outline.entries.map (·.1) = c.entries.map (·.1) := by
    intro c
    cases c with
    | dir es => exact entriesOutline_names es
    | file _ => rfl
    | link _ => rfl
  rw [← hnames n, h, hnames]

/-- A node of the outline of a directory is a directory with entries of the same outline. -/
theorem eq_dir_of_outline {n : Node} {es : List (String × Node)} (h : n.outline = (Node.dir es).outline) :
    ∃ es', n = .dir es' ∧ entriesOutline es' = entriesOutline es := by
  obtain ⟨es', rfl⟩ := eq_dir_of_kind (kind_of_outline h)
  exact ⟨es', rfl, Node.dir.inj h⟩

end Node

namespace SameOutline

variable {fs fs' : FileSystem}

theorem wellFormed (h : SameOutline fs fs') (hw : fs.WellFormed) : fs'.WellFormed := by
  rw [FileSystem.WellFormed, ← Node.outline_wellFormed, ← h, Node.outline_wellFormed]
  exact hw

/-- What stands at a position has the same outline in both. -/
theorem at? (h : SameOutline fs fs') (q : List String) : (fs.at? q).map Node.outline = (fs'.at? q).map Node.outline := by
  have hq : fs.root.outline.at? q = fs'.root.outline.at? q := by rw [h]
  rw [Node.outline_at?, Node.outline_at?] at hq
  exact hq

theorem sameShape (h : SameOutline fs fs') : SameShape fs fs' := by
  refine ⟨fun q => ?_, ?_⟩
  · have hq := congrArg (Option.map Node.kind) (h.at? q)
    simp only [Option.map_map, Function.comp_def, Node.outline_kind] at hq
    exact hq
  · rw [← Node.outline_linkCount, h, Node.outline_linkCount]

/-- A path leads to the same position in both, and to nodes of the same outline. -/
theorem find?_ok (h : SameOutline fs fs') {path : Path} {r : Found} (hr : fs.find? path true = .ok r) :
    ∃ n', fs'.find? path true = .ok ⟨r.position, n'⟩ ∧ n'.outline = r.node.outline := by
  obtain ⟨n', hn', -⟩ := h.sameShape.find?_ok hr
  refine ⟨n', hn', ?_⟩
  obtain ⟨hn, -, -⟩ := FileSystem.route_spec (FileSystem.find?_eq_ok.1 hr).2
  obtain ⟨hm, -, -⟩ := FileSystem.route_spec (FileSystem.find?_eq_ok.1 hn').2
  have hq := h.at? r.position
  rw [hn, hm] at hq
  exact (Option.some.inj hq).symm

/-! ## Walks -/

theorem visit (h : SameShape fs fs') (keep : String → Bool) (path : Path) {es es' : List (String × Node)}
    (he : Node.entriesOutline es = Node.entriesOutline es') : fs.visit keep path es = fs'.visit keep path es' := by
  have key : ∀ es es' : List (String × Node), Node.entriesOutline es = Node.entriesOutline es' →
      (es.filter fun e => fs.leadsToDir path e.1 e.2).map (·.1) =
          (es'.filter fun e => fs'.leadsToDir path e.1 e.2).map (·.1) ∧
        (es.filter fun e => !fs.leadsToDir path e.1 e.2).map (·.1) =
          (es'.filter fun e => !fs'.leadsToDir path e.1 e.2).map (·.1) := by
    intro es
    induction es with
    | nil =>
      intro es' he
      cases es' with
      | nil => exact ⟨rfl, rfl⟩
      | cons e rest => nomatch he
    | cons e rest ih =>
      intro es' he
      obtain ⟨k, m⟩ := e
      cases es' with
      | nil => nomatch he
      | cons e' rest' =>
        obtain ⟨k', m'⟩ := e'
        rw [Node.entriesOutline, Node.entriesOutline, List.cons.injEq, Prod.mk.injEq] at he
        obtain ⟨⟨rfl, hm⟩, hrest⟩ := he
        obtain ⟨h1, h2⟩ := ih rest' hrest
        have hl := h.leadsToDir path k (Node.kind_of_outline hm).symm
        rw [List.filter_cons, List.filter_cons, List.filter_cons, List.filter_cons, hl]
        cases fs'.leadsToDir path k m' with
        | true => exact ⟨congrArg (k :: ·) h1, h2⟩
        | false => exact ⟨h1, congrArg (k :: ·) h2⟩
  obtain ⟨h1, h2⟩ := key es es' he
  rw [FileSystem.visit, FileSystem.visit, h1, h2]

mutual

/-- A walk visits the same in both. -/
theorem visits (h : SameShape fs fs') (keep : String → Bool) : ∀ (n n' : Node) (path : Path), n.outline = n'.outline →
    fs.visits keep path n = fs'.visits keep path n'
  | .file _, n', path, he => by
    obtain ⟨_, rfl⟩ := Node.eq_file_of_kind (Node.kind_of_outline he).symm
    rfl
  | .link _, n', path, he => by
    obtain rfl := Node.eq_link_of_kind (Node.kind_of_outline he).symm
    rfl
  | .dir es, n', path, he => by
    obtain ⟨es', rfl, hes⟩ := Node.eq_dir_of_outline he.symm
    rw [FileSystem.visits, FileSystem.visits, visit h keep path hes.symm, visitsBelow h keep es es' path hes.symm]

/-- A walk below entries visits the same in both. -/
theorem visitsBelow (h : SameShape fs fs') (keep : String → Bool) : ∀ (es es' : List (String × Node)) (path : Path),
    Node.entriesOutline es = Node.entriesOutline es' → fs.visitsBelow keep path es = fs'.visitsBelow keep path es'
  | [], [], _, _ => rfl
  | [], _ :: _, _, he => nomatch he
  | _ :: _, [], _, he => nomatch he
  | (k, m) :: rest, (k', m') :: rest', path, he => by
    rw [Node.entriesOutline, Node.entriesOutline, List.cons.injEq, Prod.mk.injEq] at he
    obtain ⟨⟨rfl, hm⟩, hrest⟩ := he
    rw [FileSystem.visitsBelow, FileSystem.visitsBelow, visits h keep m m' (path.child k) hm,
      visitsBelow h keep rest rest' path hrest]

end

theorem walkFrom (h : SameOutline fs fs') (keep : String → Bool) (path : Path) :
    fs.walkFrom keep path = fs'.walkFrom keep path := by
  rw [FileSystem.walkFrom, FileSystem.walkFrom, FileSystem.stat?, FileSystem.stat?]
  split
  · rfl
  · cases hr : fs.find? path true with
    | error e =>
      rw [h.sameShape.find?_error hr]
      rfl
    | ok r =>
      obtain ⟨n', hn', ho⟩ := h.find?_ok hr
      rw [hn']
      exact congrArg Except.ok (visits h.sameShape keep r.node n' path ho.symm)

/-- The files of a project are the same in both. -/
theorem projectFiles (h : SameOutline fs fs') (rules : Rules) (root : Path) :
    projectFiles fs rules root = WorkspaceLint.projectFiles fs' rules root := by
  rw [WorkspaceLint.projectFiles, WorkspaceLint.projectFiles, h.walkFrom]

mutual

/-- Nodes of one outline hold entries of the same names. -/
theorem nodeDescendants : ∀ (n n' : Node) (path : Path), n.outline = n'.outline → n.descendants path = n'.descendants path
  | .file _, n', path, he => by
    obtain ⟨_, rfl⟩ := Node.eq_file_of_kind (Node.kind_of_outline he).symm
    rfl
  | .link _, n', path, he => by
    obtain rfl := Node.eq_link_of_kind (Node.kind_of_outline he).symm
    rfl
  | .dir es, n', path, he => by
    obtain ⟨es', rfl, hes⟩ := Node.eq_dir_of_outline he.symm
    obtain ⟨h1, h2⟩ := entriesDescendants es es' path hes.symm
    rw [Node.descendants, Node.descendants, h1, h2]

/-- Entries of one outline have the same names, and so has what they hold. -/
theorem entriesDescendants : ∀ (es es' : List (String × Node)) (path : Path),
    Node.entriesOutline es = Node.entriesOutline es' →
      es.map (fun e => path.child e.1) = es'.map (fun e => path.child e.1) ∧
        Node.entriesDescendants path es = Node.entriesDescendants path es'
  | [], [], _, _ => ⟨rfl, rfl⟩
  | [], _ :: _, _, he => nomatch he
  | _ :: _, [], _, he => nomatch he
  | (k, m) :: rest, (k', m') :: rest', path, he => by
    rw [Node.entriesOutline, Node.entriesOutline, List.cons.injEq, Prod.mk.injEq] at he
    obtain ⟨⟨rfl, hm⟩, hrest⟩ := he
    obtain ⟨h1, h2⟩ := entriesDescendants rest rest' path hrest
    refine ⟨?_, ?_⟩
    · rw [List.map_cons, List.map_cons, h1]
    · rw [Node.entriesDescendants, Node.entriesDescendants, nodeDescendants m m' (path.child k) hm, h2]

end

/-- The directory that a path leads to has the same outline in both. -/
theorem directoryAt (h : SameOutline fs fs') (path : Path) : (fs.directoryAt path).outline = (fs'.directoryAt path).outline := by
  rw [FileSystem.directoryAt, FileSystem.directoryAt, FileSystem.stat?, FileSystem.stat?]
  cases hr : fs.find? path true with
  | error e => rw [h.sameShape.find?_error hr]
  | ok r =>
    obtain ⟨n', hn', ho⟩ := h.find?_ok hr
    obtain ⟨q, n⟩ := r
    rw [hn']
    cases n with
    | file _ =>
      obtain ⟨_, rfl⟩ := Node.eq_file_of_kind (Node.kind_of_outline ho)
      rfl
    | link _ =>
      obtain rfl := Node.eq_link_of_kind (Node.kind_of_outline ho)
      rfl
    | dir es =>
      obtain ⟨es', rfl, -⟩ := Node.eq_dir_of_outline ho
      exact ho.symm

/-- The full listing below a path is the same in both. -/
theorem descendants (h : SameOutline fs fs') (path : Path) : fs.descendants path = fs'.descendants path := by
  rw [FileSystem.descendants, FileSystem.descendants]
  exact nodeDescendants _ _ path (h.directoryAt path)

end SameOutline

namespace DifferOnlyAt

variable {position : List String} {fs fs' : FileSystem}

theorem sameShape (h : DifferOnlyAt position fs fs') : SameShape fs fs' := h.outline.sameShape

end DifferOnlyAt

/-! ## Writing to a file -/

namespace Node

theorem lookup_cons_self (name : String) (n : Node) (es : List (String × Node)) :
    ((name, n) :: es).lookup name = some n := by
  rw [List.lookup_cons, BEq.rfl]

theorem lookup_cons_ne {k name : String} (h : k ≠ name) (n : Node) (es : List (String × Node)) :
    ((name, n) :: es).lookup k = es.lookup k := by
  rw [List.lookup_cons, beq_eq_false_iff_ne.2 h]

theorem lookup_putEntry (name k : String) (m : Node) (es : List (String × Node)) :
    (putEntry name m es).lookup k = if k = name then some m else es.lookup k := by
  induction es with
  | nil =>
    rw [putEntry]
    by_cases hk : k = name
    · rw [if_pos hk, hk, lookup_cons_self]
    · rw [if_neg hk, lookup_cons_ne hk]
  | cons e rest ih =>
    obtain ⟨x, n⟩ := e
    rw [putEntry]
    by_cases hx : x = name
    · rw [if_pos hx, hx]
      by_cases hk : k = name
      · rw [if_pos hk, hk, lookup_cons_self]
      · rw [if_neg hk, lookup_cons_ne hk, lookup_cons_ne hk]
    · rw [if_neg hx]
      by_cases hk : k = x
      · rw [hk, lookup_cons_self, lookup_cons_self, if_neg hx]
      · rw [lookup_cons_ne hk, lookup_cons_ne hk, ih]

theorem entriesOutline_putEntry {name : String} {m c : Node} {es : List (String × Node)} (hc : es.lookup name = some c)
    (hm : m.outline = c.outline) : entriesOutline (putEntry name m es) = entriesOutline es := by
  induction es with
  | nil => nomatch hc
  | cons e rest ih =>
    obtain ⟨x, n⟩ := e
    rw [putEntry]
    by_cases hx : x = name
    · subst hx
      rw [lookup_cons_self, Option.some.injEq] at hc
      rw [if_pos rfl, entriesOutline, entriesOutline, hm, hc]
    · rw [lookup_cons_ne (Ne.symm hx)] at hc
      rw [if_neg hx, entriesOutline, entriesOutline, ih hc]

/-- A file that takes the place of a file keeps the outline of the tree. -/
theorem outline_put {content : List UInt8} (q : List String) : ∀ {n : Node} {old : List UInt8},
    n.at? q = some (.file old) → (Node.put (.file content) q n).outline = n.outline := by
  induction q with
  | nil =>
    intro n old h
    cases h
    rfl
  | cons name rest ih =>
    intro n old h
    obtain ⟨es, c, rfl, hc, hrest⟩ := eq_dir_of_at?_cons h
    rw [put, child?_dir, hc, Option.getD_some, outline, outline]
    exact congrArg Node.dir (entriesOutline_putEntry hc (ih hrest))

/-- A node put at a position changes no file elsewhere. -/
theorem content?_put {content : List UInt8} (q : List String) : ∀ {n : Node} {old : List UInt8} {q' : List String},
    n.at? q = some (.file old) → q' ≠ q →
      ((Node.put (.file content) q n).at? q').bind content? = (n.at? q').bind content? := by
  induction q with
  | nil =>
    intro n old q' h hne
    cases h
    obtain ⟨x, rest, rfl⟩ := List.exists_cons_of_ne_nil hne
    rfl
  | cons name rest ih =>
    intro n old q' h hne
    obtain ⟨es, c, rfl, hc, hrest⟩ := eq_dir_of_at?_cons h
    rw [put, child?_dir, hc, Option.getD_some]
    cases q' with
    | nil => rfl
    | cons k r =>
      rw [at?_cons, at?_cons, child?_dir, child?_dir, entries, lookup_putEntry]
      by_cases hk : k = name
      · subst hk
        rw [if_pos rfl, hc, Option.bind_some, Option.bind_some]
        exact ih hrest fun h => hne (by rw [h])
      · rw [if_neg hk]

end Node

/-- Writing to a file that is there changes nothing but what it holds. -/
theorem differOnlyAt_putAt {fs : FileSystem} {position : List String} {old : List UInt8}
    (h : fs.at? position = some (.file old)) (content : List UInt8) :
    DifferOnlyAt position fs (fs.putAt position (.file content)) := by
  have hroot : (fs.putAt position (.file content)).root = Node.put (.file content) position fs.root := by
    cases position with
    | nil => nomatch h
    | cons name rest => rfl
  refine ⟨?_, fun q hq => ?_⟩
  · rw [SameOutline, hroot, Node.outline_put position h]
  · rw [FileSystem.content?, FileSystem.content?, FileSystem.at?, FileSystem.at?, hroot, Node.content?_put position h hq]

namespace FileSystem

/-- Whether a path leads to a position. -/
def leadsAt (fs : FileSystem) (path : Path) (position : List String) : Bool :=
  match fs.find? path true with
  | .ok r => r.position == position
  | .error _ => false

end FileSystem

/-- A path leads to a position in both file systems or in neither. -/
theorem SameShape.leadsAt {fs fs' : FileSystem} (h : SameShape fs fs') : fs.leadsAt = fs'.leadsAt := by
  funext path position
  rw [FileSystem.leadsAt, FileSystem.leadsAt]
  cases hr : fs.find? path true with
  | error e => rw [h.find?_error hr]
  | ok r =>
    obtain ⟨n', hn', -⟩ := h.find?_ok hr
    rw [hn']

/-- A path that does not lead to the file that differs leads to the same text in both. -/
theorem DifferOnlyAt.text? {position : List String} {fs fs' : FileSystem} (h : DifferOnlyAt position fs fs') {path : Path}
    (hp : fs.leadsAt path position = false) : fs.text? path = fs'.text? path := by
  refine h.sameShape.text? fun r hr => h.content r.position ?_
  rintro rfl
  simp [FileSystem.leadsAt, hr] at hp

/-! ## Paths to a file and links to it -/

namespace FileSystem

/-- A path is that of the file at a position, or that of a link which leads to the file. -/
def isAt (fs : FileSystem) (path : Path) (position : List String) : Bool :=
  path = .absolute position || (fs.leadsAt path position && (fs.linkAt? path.parts).isSome)

theorem leadsAt_eq_true {fs : FileSystem} {path : Path} {position : List String} :
    fs.leadsAt path position = true ↔ ∃ n, fs.find? path true = .ok ⟨position, n⟩ := by
  rw [leadsAt]
  cases h : fs.find? path true with
  | error e => simp
  | ok r =>
    obtain ⟨q, n⟩ := r
    simp

/-- A path that leads to something through an entry of a directory is its own path, or that of a link. -/
theorem isAt_of_entry {fs : FileSystem} {q position : List String} {es : List (String × Node)} {name : String}
    (hq : fs.at? q = some (.dir es)) (hs : ∀ x ∈ q, IsStep x) (hname : IsStep name)
    (hl : fs.leadsAt (.absolute (q ++ [name])) position = true) : fs.isAt (.absolute (q ++ [name])) position = true := by
  obtain ⟨m, hm⟩ := leadsAt_eq_true.1 hl
  have hroute := (find?_eq_ok.1 hm).2
  have hdir : fs.route (.absolute q) = .ok ⟨q, .dir es⟩ := route_of_at? hq hs rfl
  rw [isAt, Bool.or_eq_true, Bool.and_eq_true, decide_eq_true_iff]
  cases hn : es.lookup name with
  | none =>
    have hmissing := route_child_missing hdir rfl hname hn
    rw [show Path.child (.absolute q) name = .absolute (q ++ [name]) from rfl, hroute] at hmissing
    nomatch hmissing
  | some n =>
    have hat : fs.at? (q ++ [name]) = some n := (at?_concat hq name).trans hn
    cases ht : n.target? with
    | some t =>
      right
      refine ⟨hl, ?_⟩
      rw [linkAt?, show (Path.absolute (q ++ [name])).parts = q ++ [name] from rfl, hat, Option.bind_some, ht]
      rfl
    | none =>
      left
      have hself : fs.route (.absolute (q ++ [name])) = .ok ⟨q ++ [name], n⟩ :=
        route_of_at? hat (fun x hx => (List.mem_append.1 hx).elim (hs x) fun h => by rwa [List.mem_singleton.1 h]) ht
      rw [hroute] at hself
      cases hself
      rfl

end FileSystem

end WorkspaceLint.Files
