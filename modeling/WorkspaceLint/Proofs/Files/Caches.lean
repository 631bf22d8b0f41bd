import WorkspaceLint.Proofs.Files.LinkFree

/-!
# Trees that differ in caches only

Two file systems without links are the same outside of caches when emptying every directory of one name, below one position, makes
them the same. What is looked up, walked and listed without entering such a directory is then the same in both: `SameOutsideCaches`
comes with one statement for each operation.
-/

namespace WorkspaceLint.Files

/-- Two computations that end alike under a function fail for the same reason, or succeed with results that it does not tell
apart. -/
theorem cases_of_map_eq {ε α β : Type} {f : α → β} {x y : Except ε α} (h : x.map f = y.map f) :
    (∃ e, x = .error e ∧ y = .error e) ∨ ∃ a b, x = .ok a ∧ y = .ok b ∧ f a = f b := by
  cases x with
  | error e =>
    cases y with
    | error e' =>
      cases h
      exact Or.inl ⟨e, rfl, rfl⟩
    | ok b => nomatch h
  | ok a =>
    cases y with
    | error e' => nomatch h
    | ok b => exact Or.inr ⟨a, b, rfl, rfl, Except.ok.inj h⟩

namespace Node

/-- A node without what it holds when it is a directory. -/
def bare : Node → Node
  | .dir _ => .dir []
  | n => n

/-- A node with bare entries when it is a directory. -/
def top : Node → Node
  | .dir es => .dir (es.map fun e => (e.1, e.2.bare))
  | n => n

mutual

/-- A node with nothing in its directories of one name. -/
def withoutCaches (cache : String) : Node → Node
  | .file content => .file content
  | .link t => .link t
  | .dir es => .dir (entriesWithoutCaches cache es)

/-- Entries with nothing in their directories of one name. -/
def entriesWithoutCaches (cache : String) : List (String × Node) → List (String × Node)
  | [] => []
  | (name, n) :: rest =>
    (name, if name = cache then n.bare else n.withoutCaches cache) :: entriesWithoutCaches cache rest

end

/-- A node with nothing in its directories of one name below a position. -/
def withoutCachesBelow (cache : String) : List String → Node → Node
  | [], n => n.withoutCaches cache
  | name :: rest, .dir es => .dir (es.map fun e => (e.1, if e.1 = name then withoutCachesBelow cache rest e.2 else e.2))
  | _ :: _, n => n

/-! ## What is left of a node -/

variable {cache : String}

/-- Entries that are changed by their names are looked up as they are changed. -/
theorem lookup_map (f : String → Node → Node) (es : List (String × Node)) (name : String) :
    (es.map fun e => (e.1, f e.1 e.2)).lookup name = (es.lookup name).map (f name) := by
  induction es with
  | nil => rfl
  | cons e rest ih =>
    obtain ⟨k, m⟩ := e
    rw [List.map_cons, List.lookup_cons, List.lookup_cons]
    cases hk : name == k with
    | true =>
      rw [eq_of_beq hk]
      rfl
    | false => exact ih

theorem entriesWithoutCaches_eq (es : List (String × Node)) :
    entriesWithoutCaches cache es = es.map fun e => (e.1, if e.1 = cache then e.2.bare else e.2.withoutCaches cache) := by
  induction es with
  | nil => rfl
  | cons e rest ih =>
    obtain ⟨k, m⟩ := e
    rw [entriesWithoutCaches, ih]
    rfl

@[simp] theorem bare_bare (n : Node) : n.bare.bare = n.bare := by cases n <;> rfl

@[simp] theorem bare_top (n : Node) : n.top.bare = n.bare := by cases n <;> rfl

@[simp] theorem bare_withoutCaches (n : Node) : (n.withoutCaches cache).bare = n.bare := by
  cases n <;> simp [withoutCaches, bare]

@[simp] theorem top_withoutCaches (n : Node) : (n.withoutCaches cache).top = n.top := by
  cases n with
  | file _ => rfl
  | link _ => rfl
  | dir es =>
    rw [withoutCaches, top, top, entriesWithoutCaches_eq, List.map_map]
    congr 1
    refine List.map_congr_left fun e _ => ?_
    dsimp only [Function.comp_apply]
    split <;> simp

theorem bare_withoutCachesBelow (q : List String) (n : Node) : (n.withoutCachesBelow cache q).bare = n.bare := by
  cases q with
  | nil => exact bare_withoutCaches n
  | cons name rest => cases n <;> rfl

theorem top_withoutCachesBelow (q : List String) (n : Node) : (n.withoutCachesBelow cache q).top = n.top := by
  cases q with
  | nil => exact top_withoutCaches n
  | cons name rest =>
    cases n with
    | file _ => rfl
    | link _ => rfl
    | dir es =>
      rw [withoutCachesBelow, top, top, List.map_map]
      congr 1
      refine List.map_congr_left fun e _ => ?_
      dsimp only [Function.comp_apply]
      split
      · rw [bare_withoutCachesBelow]
      · rfl

theorem top_child? (n : Node) (name : String) : n.top.child? name = (n.child? name).map bare := by
  cases n with
  | file _ => rfl
  | link _ => rfl
  | dir es => exact lookup_map (fun _ => bare) es name

/-- Nodes of one top are of one kind and hold the same octets. -/
theorem bare_of_top {n m : Node} (h : n.top = m.top) : n.bare = m.bare := by
  rw [← bare_top n, h, bare_top]

/-! ## Positions outside of caches -/

theorem withoutCaches_child? (n : Node) {name : String} (h : name ≠ cache) :
    (n.withoutCaches cache).child? name = (n.child? name).map (withoutCaches cache) := by
  cases n with
  | file _ => rfl
  | link _ => rfl
  | dir es =>
    rw [withoutCaches, child?_dir, child?_dir, entriesWithoutCaches_eq,
      lookup_map (fun name n => if name = cache then n.bare else n.withoutCaches cache)]
    simp only [h, if_false]

/-- Names outside of caches lead to what is left of what they led to. -/
theorem withoutCaches_at? {names : List String} (h : cache ∉ names) : ∀ n : Node,
    (n.withoutCaches cache).at? names = (n.at? names).map (withoutCaches cache) := by
  induction names with
  | nil => exact fun _ => rfl
  | cons name rest ih =>
    intro n
    rw [List.mem_cons, not_or] at h
    rw [at?_cons, at?_cons, withoutCaches_child? n (Ne.symm h.1)]
    cases n.child? name with
    | none => rfl
    | some c => exact ih h.2 c

theorem withoutCachesBelow_child? (n : Node) (name x : String) (q : List String) :
    (n.withoutCachesBelow cache (name :: q)).child? x =
      (n.child? x).map fun c => if x = name then c.withoutCachesBelow cache q else c := by
  cases n with
  | file _ => rfl
  | link _ => rfl
  | dir es => exact lookup_map (fun k m => if k = name then m.withoutCachesBelow cache q else m) es x

/-- Below the position what is left is what is left of the node there. -/
theorem withoutCachesBelow_at?_append (q names : List String) : ∀ n : Node,
    (n.withoutCachesBelow cache q).at? (q ++ names) = ((n.at? q).map (withoutCaches cache)).bind (·.at? names) := by
  induction q with
  | nil => exact fun _ => rfl
  | cons name rest ih =>
    intro n
    rw [List.cons_append, at?_cons, at?_cons, withoutCachesBelow_child?]
    cases n.child? name with
    | none => rfl
    | some c =>
      simp only [Option.map_some, Option.bind_some, if_true]
      exact ih c

/-- The top of what stands outside of caches is left. -/
theorem withoutCachesBelow_at?_top (q : List String) : ∀ (p : List String) (n : Node),
    (∀ names, p = q ++ names → cache ∉ names) →
      ((n.withoutCachesBelow cache q).at? p).map top = (n.at? p).map top := by
  induction q with
  | nil =>
    intro p n h
    rw [withoutCachesBelow, withoutCaches_at? (h p rfl), Option.map_map]
    exact congrFun (congrArg Option.map (funext fun m => top_withoutCaches m)) _
  | cons name rest ih =>
    intro p n h
    cases p with
    | nil => simp only [at?_nil, Option.map_some, top_withoutCachesBelow]
    | cons x p =>
      rw [at?_cons, at?_cons, withoutCachesBelow_child?]
      cases n.child? x with
      | none => rfl
      | some c =>
        simp only [Option.map_some, Option.bind_some]
        by_cases hx : x = name
        · rw [if_pos hx]
          refine ih p c fun names hp => h names ?_
          rw [hp, hx]
          rfl
        · rw [if_neg hx]

/-- Where no directory stands at the position nothing is taken away. -/
theorem withoutCachesBelow_eq_self {q : List String} : ∀ {n : Node}, n.WellFormed → (∀ es, n.at? q ≠ some (.dir es)) →
    n.withoutCachesBelow cache q = n := by
  induction q with
  | nil =>
    intro n _ hno
    cases n with
    | file _ => rfl
    | link _ => rfl
    | dir es => exact absurd (at?_nil _) (hno es)
  | cons name rest ih =>
    intro n hw hno
    cases n with
    | file _ => rfl
    | link _ => rfl
    | dir es =>
      rw [withoutCachesBelow]
      congr 1
      refine (List.map_congr_left fun e he => ?_).trans (List.map_id es)
      by_cases hname : e.1 = name
      · have hlookup : es.lookup name = some e.2 := hname ▸ hw.mem_iff_lookup.1 he
        have hbelow : ∀ es', e.2.at? rest ≠ some (.dir es') := by
          intro es' h
          refine hno es' ?_
          rw [at?_cons, child?_dir, hlookup]
          exact h
        rw [if_pos hname, ih ((wellFormed_dir es).1 hw |>.2 e he).2 hbelow]
        rfl
      · rw [if_neg hname]
        rfl

end Node

/-- Names that follow the way to a directory are walked from there. -/
theorem FileSystem.walk_real_append {fs : FileSystem} {k : Nat} {start p : List String} {m : Node} {es : List (String × Node)}
    (hp : fs.at? p = some m) (hs : ∀ x ∈ start, IsStep x) (hm : m.at? start = some (.dir es)) (rest : List String) :
    fs.walk true k p (start ++ rest) = fs.walk true k (p ++ start) rest := by
  induction start generalizing p m with
  | nil => rw [List.nil_append, List.append_nil]
  | cons name more ih =>
    obtain ⟨es', c, rfl, hc, hmore⟩ := Node.eq_dir_of_at?_cons hm
    have hct : c.target? = none := by
      cases more with
      | nil =>
        cases hmore
        rfl
      | cons _ _ =>
        obtain ⟨_, _, rfl, -, -⟩ := Node.eq_dir_of_at?_cons hmore
        rfl
    rw [List.cons_append, walk_step hp (hs name List.mem_cons_self) hc hct,
      ih ((at?_concat hp name).trans hc) (fun x hx => hs x (List.mem_cons_of_mem _ hx)) hmore, List.append_assoc]
    rfl

/-- What lies on the way to a directory is one. -/
theorem FileSystem.dir_of_prefix {fs : FileSystem} {q start : List String} {es : List (String × Node)}
    (hq : fs.at? q = some (.dir es)) (h : start <+: q) : ∃ es', fs.at? start = some (.dir es') := by
  obtain ⟨rest, rfl⟩ := h
  rw [at?_append, Option.bind_eq_some_iff] at hq
  obtain ⟨m, hm, hrest⟩ := hq
  cases rest with
  | nil =>
    cases hrest
    exact ⟨es, hm⟩
  | cons _ _ =>
    obtain ⟨es', _, rfl, -, -⟩ := Node.eq_dir_of_at?_cons hrest
    exact ⟨es', hm⟩

/-! ## File systems that are the same outside of caches -/

/-- Two file systems without links that are the same when the directories of one name below a position are emptied. -/
structure SameOutsideCaches (cache : String) (q : List String) (fs fs' : FileSystem) : Prop where
  /-- The first is well formed. -/
  wellFormed : fs.WellFormed
  /-- The second is well formed. -/
  wellFormed' : fs'.WellFormed
  /-- The first has no links. -/
  linkFree : fs.root.linkCount = 0
  /-- The second has no links. -/
  linkFree' : fs'.root.linkCount = 0
  /-- What is left of them is the same. -/
  left : fs.root.withoutCachesBelow cache q = fs'.root.withoutCachesBelow cache q

/-- A position in a cache below a position, or the position of such a cache. -/
def InCache (cache : String) (q p : List String) : Prop := ∃ names, p = q ++ names ∧ cache ∈ names

/-- A path that goes from a beginning of a position along names other than that of caches. -/
def OutsideCaches (cache : String) (q : List String) (path : Path) : Prop :=
  ∃ start names, start <+: q ∧ path.parts = start ++ names ∧ cache ∉ names

section Positions

variable {cache : String} {q p : List String}

theorem InCache.not_concat {name : String} (h : ¬InCache cache q p) (hname : name ≠ cache) : ¬InCache cache q (p ++ [name]) := by
  rintro ⟨names, hp, hmem⟩
  by_cases hnil : names = []
  · rw [hnil] at hmem
    nomatch hmem
  · rw [← List.dropLast_concat_getLast hnil, ← List.append_assoc] at hp
    obtain ⟨hp, hlast⟩ := List.append_inj' hp rfl
    refine h ⟨names.dropLast, hp, ?_⟩
    rw [← List.dropLast_concat_getLast hnil, List.mem_append, List.mem_singleton] at hmem
    refine hmem.resolve_right fun hc => hname ?_
    rw [hc]
    exact List.cons.inj hlast |>.1

theorem InCache.not_dropLast (h : ¬InCache cache q p) : ¬InCache cache q p.dropLast := by
  rintro ⟨names, hp, hmem⟩
  by_cases hnil : p = []
  · subst hnil
    exact h ⟨names, hp, hmem⟩
  · refine h ⟨names ++ [p.getLast hnil], ?_, List.mem_append_left _ hmem⟩
    rw [← List.append_assoc, ← hp, List.dropLast_concat_getLast]

/-- The way to the position leads through no cache below it. -/
theorem InCache.not_of_prefix (h : p <+: q) : ¬InCache cache q p := by
  rintro ⟨names, rfl, hmem⟩
  have hlen := h.length_le
  rw [List.length_append] at hlen
  rw [List.eq_nil_of_length_eq_zero (l := names) (by omega)] at hmem
  nomatch hmem

end Positions

theorem OutsideCaches.child {cache : String} {q : List String} {path : Path} (h : OutsideCaches cache q path) {name : String}
    (hname : name ≠ cache) : OutsideCaches cache q (path.child name) := by
  obtain ⟨start, names, hstart, hparts, hnames⟩ := h
  refine ⟨start, names ++ [name], hstart, ?_, ?_⟩
  · rw [Path.child, hparts, List.append_assoc]
  · rw [List.mem_append, List.mem_singleton, not_or]
    exact ⟨hnames, Ne.symm hname⟩

namespace SameOutsideCaches

variable {cache : String} {q : List String} {fs fs' : FileSystem}

theorem symm (h : SameOutsideCaches cache q fs fs') : SameOutsideCaches cache q fs' fs :=
  ⟨h.wellFormed', h.wellFormed, h.linkFree', h.linkFree, h.left.symm⟩

/-! ## Nodes -/

theorem at?_top (h : SameOutsideCaches cache q fs fs') {p : List String} (hp : ¬InCache cache q p) :
    (fs.at? p).map Node.top = (fs'.at? p).map Node.top := by
  have hout : ∀ names, p = q ++ names → cache ∉ names := fun names he hmem => hp ⟨names, he, hmem⟩
  rw [FileSystem.at?, FileSystem.at?, ← Node.withoutCachesBelow_at?_top q p _ hout, h.left,
    Node.withoutCachesBelow_at?_top q p _ hout]

/-- The entries of a directory outside of caches are of one kind and hold the same octets in both. -/
theorem at?_bare (h : SameOutsideCaches cache q fs fs') {p : List String} (hp : ¬InCache cache q p) (name : String) :
    (fs.at? (p ++ [name])).map Node.bare = (fs'.at? (p ++ [name])).map Node.bare := by
  have hchild : ∀ fs : FileSystem, (fs.at? (p ++ [name])).map Node.bare = ((fs.at? p).map Node.top).bind (·.child? name) := by
    intro fs
    rw [FileSystem.at?_append]
    cases fs.at? p with
    | none => rfl
    | some n =>
      simp only [Option.bind_some, Option.map_some, Node.top_child?]
      rw [Node.at?_cons]
      cases n.child? name <;> rfl
  rw [hchild, hchild, h.at?_top hp]

/-- What stands below the position, outside of caches, is left as the same in both. -/
theorem at?_left (h : SameOutsideCaches cache q fs fs') {names : List String} (hnames : cache ∉ names) :
    (fs.at? (q ++ names)).map (Node.withoutCaches cache) = (fs'.at? (q ++ names)).map (Node.withoutCaches cache) := by
  have hleft : ∀ fs : FileSystem, (fs.at? (q ++ names)).map (Node.withoutCaches cache) =
      (fs.root.withoutCachesBelow cache q).at? (q ++ names) := by
    intro fs
    rw [Node.withoutCachesBelow_at?_append, FileSystem.at?_append, FileSystem.at?]
    cases fs.root.at? q with
    | none => rfl
    | some n => exact (Node.withoutCaches_at? hnames n).symm
  rw [hleft, hleft, h.left]

/-! ## Look-ups -/

/-- A directory outside of caches stands in both, with entries of the same names and kinds in the same order. -/
theorem dir (h : SameOutsideCaches cache q fs fs') {p : List String} (hp : ¬InCache cache q p) {es : List (String × Node)}
    (hes : fs.at? p = some (.dir es)) :
    ∃ es', fs'.at? p = some (.dir es') ∧ (es.map fun e => (e.1, e.2.bare)) = es'.map fun e => (e.1, e.2.bare) := by
  have htop := h.at?_top hp
  rw [hes, Option.map_some, eq_comm, Option.map_eq_some_iff] at htop
  obtain ⟨n', hn', ht⟩ := htop
  cases n' with
  | file _ => nomatch ht
  | link _ => nomatch ht
  | dir es' => exact ⟨es', hn', (Node.dir.inj ht).symm⟩

/-- Where no directory stands at the position the file systems are the same. -/
theorem eq_of_no_dir (h : SameOutsideCaches cache q fs fs') (hno : ∀ es, fs.at? q ≠ some (.dir es)) : fs = fs' := by
  have hno' : ∀ es, fs'.at? q ≠ some (.dir es) := by
    intro es hes
    obtain ⟨es', hes', -⟩ := h.symm.dir (InCache.not_of_prefix List.prefix_rfl) hes
    exact hno es' hes'
  have hroot := h.left
  rw [Node.withoutCachesBelow_eq_self h.wellFormed hno, Node.withoutCachesBelow_eq_self h.wellFormed' hno'] at hroot
  cases fs
  cases fs'
  exact congrArg FileSystem.mk (Node.dir.inj hroot)

theorem noLinks (h : SameOutsideCaches cache q fs fs') : fs.NoLinks := FileSystem.noLinks_of_linkCount h.linkFree

/-- A look-up without names ends alike where the same stands in both. -/
theorem walkNames_nil {β : Type} {f : Node → β} {p : List String} (he : (fs.at? p).map f = (fs'.at? p).map f)
    (onLink onLink' : List String → String → List String → Except Fault Found) :
    (fs.walkNames true onLink p []).map (fun r => f r.node) = (fs'.walkNames true onLink' p []).map fun r => f r.node := by
  rw [FileSystem.walkNames, FileSystem.walkNames]
  cases hn : fs.at? p with
  | none =>
    rw [hn, Option.map_none, eq_comm, Option.map_eq_none_iff] at he
    rw [he]
  | some n =>
    rw [hn, Option.map_some, eq_comm, Option.map_eq_some_iff] at he
    obtain ⟨n', hn', he⟩ := he
    rw [hn']
    exact congrArg Except.ok he.symm

/-- Names that enter no cache lead to nodes of which something is the same in both, when it is the same of all nodes that they can
lead to. -/
theorem walkNames {β : Type} (h : SameOutsideCaches cache q fs fs') {f : Node → β} {ends : String → Prop}
    (hf : ∀ p, ¬InCache cache q p → (fs.at? p).map f = (fs'.at? p).map f)
    (hends : ∀ p name, ¬InCache cache q p → ends name → (fs.at? (p ++ [name])).map f = (fs'.at? (p ++ [name])).map f)
    (onLink onLink' : List String → String → List String → Except Fault Found) (names : List String) :
    ∀ p, ¬InCache cache q p → (∀ x ∈ names, ends x) → cache ∉ names.dropLast →
      (fs.walkNames true onLink p names).map (fun r => f r.node) =
        (fs'.walkNames true onLink' p names).map fun r => f r.node := by
  induction names with
  | nil => exact fun p hp _ _ => walkNames_nil (hf p hp) onLink onLink'
  | cons name rest ih =>
    intro p hp hnames hcache
    rw [List.forall_mem_cons] at hnames
    by_cases hdir : ∃ es, fs.at? p = some (.dir es)
    · obtain ⟨es, hes⟩ := hdir
      obtain ⟨es', hes', hsame⟩ := h.dir hp hes
      have hlookup : (es.lookup name).isSome = (es'.lookup name).isSome := by
        rw [← Option.isSome_map (f := Node.bare), ← Node.lookup_map (fun _ => Node.bare), hsame,
          Node.lookup_map (fun _ => Node.bare), Option.isSome_map]
      have hrest : cache ∉ rest.dropLast := by
        cases rest with
        | nil => exact List.not_mem_nil
        | cons x xs => exact fun hmem => hcache (List.mem_cons_of_mem _ hmem)
      rw [h.noLinks.walkNames_cons hes, h.symm.noLinks.walkNames_cons hes', hlookup]
      split
      · exact ih p hp hnames.2 hrest
      · split
        · exact ih p.dropLast (InCache.not_dropLast hp) hnames.2 hrest
        · split
          · rfl
          · split
            · cases rest with
              | nil => exact walkNames_nil (hends p name hp hnames.1) onLink onLink'
              | cons x xs =>
                refine ih _ (InCache.not_concat hp ?_) hnames.2 hrest
                rintro rfl
                exact hcache List.mem_cons_self
            · rfl
    · have hdir' : ∀ es, fs'.at? p ≠ some (.dir es) := by
        intro es hes
        obtain ⟨es', hes', -⟩ := h.symm.dir hp hes
        exact hdir ⟨es', hes'⟩
      rw [FileSystem.walkNames_cons_of_no_dir (not_exists.1 hdir), FileSystem.walkNames_cons_of_no_dir hdir']

variable {es : List (String × Node)} {path : Path}

/-- A path that enters no cache leads to nodes of which something is the same in both. -/
theorem stat?_map {β : Type} (h : SameOutsideCaches cache q fs fs') (hq : fs.at? q = some (.dir es)) {f : Node → β}
    (ends : String → Prop) (hf : ∀ p, ¬InCache cache q p → (fs.at? p).map f = (fs'.at? p).map f)
    (hends : ∀ p name, ¬InCache cache q p → ends name → (fs.at? (p ++ [name])).map f = (fs'.at? (p ++ [name])).map f)
    {start names : List String} (hstart : start <+: q) (hparts : path.parts = start ++ names) (hnames : ∀ x ∈ names, ends x)
    (hcache : cache ∉ names.dropLast) : (fs.stat? path).map f = (fs'.stat? path).map f := by
  have houtside : ¬InCache cache q start := InCache.not_of_prefix hstart
  obtain ⟨ds, hds⟩ := FileSystem.dir_of_prefix hq hstart
  obtain ⟨ds', hds', -⟩ := h.dir houtside hds
  have hwalk : ∀ {fs : FileSystem} {ds : List (String × Node)}, fs.WellFormed → fs.at? start = some (.dir ds) →
      fs.walk true maxLinks [] path.parts = fs.walk true maxLinks start names := by
    intro fs ds hw hds
    rw [hparts]
    exact FileSystem.walk_real_append (FileSystem.at?_nil fs) (hw.isStep hds) hds names
  have hsame : ∀ k, (fs.walk true k start names).map (fun r => f r.node) = (fs'.walk true k start names).map fun r => f r.node := by
    intro k
    cases k with
    | zero => exact h.walkNames hf hends _ _ names start houtside hnames hcache
    | succ k => exact h.walkNames hf hends _ _ names start houtside hnames hcache
  rw [FileSystem.stat?, FileSystem.stat?, FileSystem.find?, FileSystem.find?, hwalk h.wellFormed hds,
    hwalk h.wellFormed' hds']
  split
  · rfl
  · have hnode : ∀ x : Except Fault Found, (x.map (·.node)).map f = x.map fun r => f r.node := by
      intro x
      cases x <;> rfl
    rw [hnode, hnode, hsame]

/-- A path outside of caches leads to nodes of the same top in both, or nowhere for the same reason. -/
theorem stat?_top (h : SameOutsideCaches cache q fs fs') (hq : fs.at? q = some (.dir es)) (ho : OutsideCaches cache q path) :
    (fs.stat? path).map Node.top = (fs'.stat? path).map Node.top := by
  obtain ⟨start, names, hstart, hparts, hnames⟩ := ho
  exact h.stat?_map hq (· ≠ cache) (fun p hp => h.at?_top hp)
    (fun p name hp hname => h.at?_top (InCache.not_concat hp hname)) hstart hparts
    (fun x hx hc => hnames (hc ▸ hx)) fun hmem => hnames (List.dropLast_subset names hmem)

/-- The path of an entry of a directory outside of caches leads to nodes of one kind with the same octets in both, or nowhere for
the same reason. -/
theorem stat?_child (h : SameOutsideCaches cache q fs fs') (hq : fs.at? q = some (.dir es)) (ho : OutsideCaches cache q path)
    (name : String) : (fs.stat? (path.child name)).map Node.bare = (fs'.stat? (path.child name)).map Node.bare := by
  obtain ⟨start, names, hstart, hparts, hnames⟩ := ho
  have hchild : (path.child name).parts = start ++ (names ++ [name]) := by
    rw [Path.child, hparts, List.append_assoc]
  refine h.stat?_map hq (fun _ => True) (fun p hp => ?_) (fun p name hp _ => h.at?_bare hp name) hstart hchild
    (fun _ _ => trivial) (by rwa [List.dropLast_concat])
  · have htop := congrArg (Option.map Node.bare) (h.at?_top hp)
    rw [Option.map_map, Option.map_map] at htop
    rwa [show Node.bare ∘ Node.top = Node.bare from funext Node.bare_top] at htop

theorem stat?_bare (h : SameOutsideCaches cache q fs fs') (hq : fs.at? q = some (.dir es)) (ho : OutsideCaches cache q path) :
    (fs.stat? path).map Node.bare = (fs'.stat? path).map Node.bare := by
  obtain ⟨e, he, he'⟩ | ⟨n, n', hn, hn', ht⟩ := cases_of_map_eq (h.stat?_top hq ho)
  · rw [he, he']
  · rw [hn, hn']
    exact congrArg Except.ok (Node.bare_of_top ht)

/-- A directory outside of caches lists the same names in the same order in both. -/
theorem directoryAt_names (h : SameOutsideCaches cache q fs fs') (hq : fs.at? q = some (.dir es))
    (ho : OutsideCaches cache q path) :
    (fs.directoryAt path).entries.map (·.1) = (fs'.directoryAt path).entries.map (·.1) := by
  have hnames : ∀ n : Node, n.entries.map (·.1) = n.top.entries.map (·.1) := by
    intro n
    cases n with
    | file _ => rfl
    | link _ => rfl
    | dir es => simp [Node.top, Node.entries]
  rw [FileSystem.directoryAt, FileSystem.directoryAt]
  obtain ⟨e, he, he'⟩ | ⟨n, n', hn, hn', ht⟩ := cases_of_map_eq (h.stat?_top hq ho)
  · rw [he, he']
  · rw [hn, hn']
    cases n with
    | file _ =>
      cases n' with
      | dir _ => cases ht
      | _ => rfl
    | link _ =>
      cases n' with
      | dir _ => cases ht
      | _ => rfl
    | dir es =>
      cases n' with
      | dir es' =>
        have := hnames (.dir es)
        rw [ht] at this
        exact this.trans (hnames (.dir es')).symm
      | file _ => cases ht
      | link _ => cases ht

end SameOutsideCaches

/-! ## What look-ups find -/

section Bare

variable {fs fs' : FileSystem} {path : Path}

/-- Where a path leads to the same kind of node in both, or nowhere for the same reason, a test of the kind gives the same. -/
theorem leadsTo_of_bare {kind : Node → Bool} (hk : ∀ n : Node, kind n.bare = kind n)
    (h : (fs.stat? path).map Node.bare = (fs'.stat? path).map Node.bare) : fs.leadsTo kind path = fs'.leadsTo kind path := by
  rw [FileSystem.leadsTo, FileSystem.leadsTo]
  split
  · rfl
  · obtain ⟨e, he, he'⟩ | ⟨n, n', hn, hn', hb⟩ := cases_of_map_eq h
    · rw [he, he']
    · rw [hn, hn']
      dsimp only
      rw [← hk n, hb, hk]

theorem exists?_of_bare (h : (fs.stat? path).map Node.bare = (fs'.stat? path).map Node.bare) :
    fs.exists? path = fs'.exists? path :=
  leadsTo_of_bare (fun _ => rfl) h

theorem isDir?_of_bare (h : (fs.stat? path).map Node.bare = (fs'.stat? path).map Node.bare) :
    fs.isDir? path = fs'.isDir? path :=
  leadsTo_of_bare (fun n => by cases n <;> rfl) h

theorem isFile?_of_bare (h : (fs.stat? path).map Node.bare = (fs'.stat? path).map Node.bare) :
    fs.isFile? path = fs'.isFile? path :=
  leadsTo_of_bare (fun n => by cases n <;> rfl) h

/-- The same octets have the same text. -/
theorem text?_of_bare (h : (fs.stat? path).map Node.bare = (fs'.stat? path).map Node.bare) : fs.text? path = fs'.text? path := by
  have hoctets : fs.octets? path = fs'.octets? path := by
    rw [FileSystem.octets?, FileSystem.octets?]
    obtain ⟨e, he, he'⟩ | ⟨n, n', hn, hn', hb⟩ := cases_of_map_eq h
    · rw [he, he']
    · rw [hn, hn']
      cases n <;> cases n' <;> first | rfl | (cases hb <;> rfl)
  rw [FileSystem.text?, FileSystem.text?, hoctets]

end Bare

/-! ## Walks and listings -/

namespace Node

/-- Entries of which the same is left have the same names, kinds and octets. -/
theorem bare_of_entriesWithoutCaches {cache : String} {es es' : List (String × Node)}
    (h : entriesWithoutCaches cache es = entriesWithoutCaches cache es') :
    (es.map fun e => (e.1, e.2.bare)) = es'.map fun e => (e.1, e.2.bare) := by
  have htop := congrArg top (show (Node.dir es).withoutCaches cache = (Node.dir es').withoutCaches cache by
    rw [withoutCaches, withoutCaches, h])
  rw [top_withoutCaches, top_withoutCaches] at htop
  exact Node.dir.inj htop

/-- A node of which the same is left as of a directory is a directory. -/
theorem eq_dir_of_withoutCaches {cache : String} {n : Node} {es : List (String × Node)}
    (h : n.withoutCaches cache = (Node.dir es).withoutCaches cache) :
    ∃ es', n = .dir es' ∧ entriesWithoutCaches cache es' = entriesWithoutCaches cache es := by
  cases n with
  | file _ => nomatch h
  | link _ => nomatch h
  | dir es' => exact ⟨es', rfl, Node.dir.inj h⟩

end Node

namespace FileSystem

/-- Without links the visit of a directory sees the names and kinds of its entries. -/
theorem visit_of_linkCount {fs : FileSystem} (keep : String → Bool) (path : Path) {es : List (String × Node)}
    (h : Node.entriesLinkCount es = 0) :
    fs.visit keep path es =
      ⟨path, (((es.map fun e => (e.1, e.2.bare)).filter (·.2.isDir)).map (·.1)).filter keep,
        ((es.map fun e => (e.1, e.2.bare)).filter fun e => !e.2.isDir).map (·.1)⟩ := by
  have hdir : ∀ e ∈ es, fs.leadsToDir path e.1 e.2 = e.2.bare.isDir := by
    intro e he
    have hlinks := Node.linkCount_of_mem h e he
    obtain ⟨k, m⟩ := e
    cases m with
    | link _ => nomatch hlinks
    | file _ => rfl
    | dir _ => rfl
  have hdirs : es.filter (fun e => fs.leadsToDir path e.1 e.2) = es.filter fun e => e.2.bare.isDir :=
    List.filter_congr hdir
  have hfiles : es.filter (fun e => !fs.leadsToDir path e.1 e.2) = es.filter fun e => !e.2.bare.isDir :=
    List.filter_congr fun e he => by rw [hdir e he]
  rw [visit, hdirs, hfiles]
  simp only [List.filter_map, List.map_map, Function.comp_def]

end FileSystem

namespace SameOutsideCaches

variable {cache : String} {q : List String} {fs fs' : FileSystem}

mutual

/-- A walk that enters no caches visits the same below nodes of which the same is left. -/
theorem visits {keep : String → Bool} (hkeep : keep cache = false) : ∀ (n n' : Node) (path : Path), n.linkCount = 0 →
    n'.linkCount = 0 → n.withoutCaches cache = n'.withoutCaches cache → fs.visits keep path n = fs'.visits keep path n'
  | .file _, n', path, _, _, h => by
    cases n' with
    | file _ => rfl
    | link _ => nomatch h
    | dir _ => nomatch h
  | .link _, _, _, hl, _, _ => nomatch hl
  | .dir es, n', path, hl, hl', h => by
    obtain ⟨es', rfl, hes⟩ := Node.eq_dir_of_withoutCaches h.symm
    rw [FileSystem.visits, FileSystem.visits, FileSystem.visit_of_linkCount keep path hl, FileSystem.visit_of_linkCount keep path hl',
      Node.bare_of_entriesWithoutCaches hes, visitsBelow hkeep es es' path hl hl' hes.symm]

/-- A walk that enters no caches visits the same below entries of which the same is left. -/
theorem visitsBelow {keep : String → Bool} (hkeep : keep cache = false) : ∀ (es es' : List (String × Node)) (path : Path),
    Node.entriesLinkCount es = 0 → Node.entriesLinkCount es' = 0 →
      Node.entriesWithoutCaches cache es = Node.entriesWithoutCaches cache es' →
        fs.visitsBelow keep path es = fs'.visitsBelow keep path es'
  | [], [], _, _, _, _ => rfl
  | [], _ :: _, _, _, _, h => nomatch h
  | _ :: _, [], _, _, _, h => nomatch h
  | (k, m) :: rest, (k', m') :: rest', path, hl, hl', h => by
    rw [Node.entriesWithoutCaches, Node.entriesWithoutCaches, List.cons.injEq, Prod.mk.injEq] at h
    obtain ⟨⟨rfl, hm⟩, hrest⟩ := h
    rw [Node.entriesLinkCount, Nat.add_eq_zero_iff] at hl hl'
    rw [FileSystem.visitsBelow, FileSystem.visitsBelow, visitsBelow hkeep rest rest' path hl.2 hl'.2 hrest]
    by_cases hk : k = cache
    · rw [hk, hkeep]
      rfl
    · rw [if_neg hk, if_neg hk] at hm
      rw [visits hkeep m m' (path.child k) hl.1 hl'.1 hm]

end

variable {es : List (String × Node)}

/-- A path that goes on below the position and outside of caches leads to nodes of which the same is left, where it is written, or
nowhere for the same reason. -/
theorem stat?_left (h : SameOutsideCaches cache q fs fs') (hq : fs.at? q = some (.dir es)) {names : List String}
    (hs : ∀ x ∈ q ++ names, IsStep x) (hnames : cache ∉ names) :
    (∃ e, fs.stat? (.absolute (q ++ names)) = .error e ∧ fs'.stat? (.absolute (q ++ names)) = .error e) ∨
      ∃ n n', fs.stat? (.absolute (q ++ names)) = .ok n ∧ fs'.stat? (.absolute (q ++ names)) = .ok n' ∧
        fs.at? (q ++ names) = some n ∧ fs'.at? (q ++ names) = some n' ∧ n.withoutCaches cache = n'.withoutCaches cache := by
  have hout : OutsideCaches cache q (.absolute (q ++ names)) := ⟨q, names, List.prefix_rfl, rfl, hnames⟩
  refine (cases_of_map_eq (h.stat?_bare hq hout)).imp_right fun ⟨n, n', hn, hn', _⟩ => ?_
  have hat : fs.at? (q ++ names) = some n := h.noLinks.at?_of_stat? hs hn
  have hat' : fs'.at? (q ++ names) = some n' := h.symm.noLinks.at?_of_stat? hs hn'
  have hleft := h.at?_left hnames
  rw [hat, hat'] at hleft
  exact ⟨n, n', hn, hn', hat, hat', Option.some.inj hleft⟩

/-- A walk that enters no caches visits the same in both, from every path outside of caches. -/
theorem walkFrom (h : SameOutsideCaches cache q fs fs') (hq : fs.at? q = some (.dir es)) {keep : String → Bool}
    (hkeep : keep cache = false) {names : List String} (hs : ∀ x ∈ q ++ names, IsStep x) (hnames : cache ∉ names) :
    fs.walkFrom keep (.absolute (q ++ names)) = fs'.walkFrom keep (.absolute (q ++ names)) := by
  rw [FileSystem.walkFrom, FileSystem.walkFrom]
  split
  · rfl
  · obtain ⟨e, he, he'⟩ | ⟨n, n', hn, hn', hat, hat', hleft⟩ := h.stat?_left hq hs hnames
    · rw [he, he']
    · rw [hn, hn']
      refine congrArg Except.ok (visits hkeep n n' _ ?_ ?_ hleft)
      · exact FileSystem.linkCount_of_at? h.linkFree hat
      · exact FileSystem.linkCount_of_at? h.linkFree' hat'

end SameOutsideCaches

/-- Whether a path goes on in a cache after its first names. -/
def passesCache (cache : String) (depth : Nat) (path : Path) : Bool := (path.parts.drop depth).dropLast.contains cache

section Listings

variable {cache : String} {depth : Nat} {path : Path}

/-- What lies below a path that is long enough goes on as it does below. -/
theorem passesCache_below (hd : depth ≤ path.parts.length) (names : List String) :
    passesCache cache depth (path.below names) = ((path.parts.drop depth) ++ names).dropLast.contains cache := by
  rw [passesCache, Path.below_parts, List.drop_append_of_le_length hd]

theorem passesCache_child (hd : depth ≤ path.parts.length) (hp : cache ∉ path.parts.drop depth) (name : String) :
    passesCache cache depth (path.child name) = false := by
  rw [Path.child_eq_below, passesCache_below hd, List.dropLast_concat]
  simpa using hp

theorem passesCache_cache (hd : depth ≤ path.parts.length) {names : List String} (hn : names ≠ []) :
    passesCache cache depth ((path.child cache).below names) = true := by
  rw [Path.child_below, passesCache_below hd, List.dropLast_append_of_ne_nil (by simp), List.dropLast_cons_of_ne_nil hn]
  simp

mutual

/-- What is listed below a path and passes no cache is what is left to be listed. -/
theorem filter_descendants : ∀ (n : Node) (path : Path), n.WellFormed → depth ≤ path.parts.length →
    cache ∉ path.parts.drop depth →
      (n.descendants path).filter (fun c => !passesCache cache depth c) = (n.withoutCaches cache).descendants path
  | .file _, _, _, _, _ => rfl
  | .link _, _, _, _, _ => rfl
  | .dir es, path, hw, hd, hp => by
    have hnames : (es.map fun e => path.child e.1).filter (fun c => !passesCache cache depth c) =
        (Node.entriesWithoutCaches cache es).map fun e => path.child e.1 := by
      rw [Node.entriesWithoutCaches_eq, List.map_map, List.filter_eq_self.2]
      · rfl
      · intro c hc
        obtain ⟨e, -, rfl⟩ := List.mem_map.1 hc
        rw [passesCache_child hd hp]
        rfl
    rw [Node.withoutCaches, Node.descendants, Node.descendants, List.filter_append, hnames,
      filter_entriesDescendants es path ((Node.wellFormed_dir es).1 hw).2 hd hp]

/-- What is listed below entries and passes no cache is what is left to be listed. -/
theorem filter_entriesDescendants : ∀ (es : List (String × Node)) (path : Path),
    (∀ e ∈ es, IsEntryName e.1 ∧ e.2.WellFormed) → depth ≤ path.parts.length → cache ∉ path.parts.drop depth →
      (Node.entriesDescendants path es).filter (fun c => !passesCache cache depth c) =
        Node.entriesDescendants path (Node.entriesWithoutCaches cache es)
  | [], _, _, _, _ => rfl
  | (k, m) :: rest, path, hw, hd, hp => by
    have hm : m.WellFormed := (hw (k, m) List.mem_cons_self).2
    rw [Node.entriesWithoutCaches, Node.entriesDescendants, Node.entriesDescendants, List.filter_append,
      filter_entriesDescendants rest path (fun e he => hw e (List.mem_cons_of_mem _ he)) hd hp]
    congr 1
    by_cases hk : k = cache
    · have hbare : m.bare.descendants (path.child k) = [] := by cases m <;> rfl
      rw [if_pos hk, hbare, List.filter_eq_nil_iff]
      intro c hc
      obtain ⟨names, -, hne, -, rfl⟩ := (Node.mem_descendants_iff hm).1 hc
      rw [hk, passesCache_cache hd hne]
      decide
    · have hdrop : (path.child k).parts.drop depth = path.parts.drop depth ++ [k] := by
        rw [Path.child, List.drop_append_of_le_length hd]
      rw [if_neg hk]
      refine filter_descendants m (path.child k) hm ?_ ?_
      · rw [Path.child, List.length_append]
        omega
      · rw [hdrop, List.mem_append, List.mem_singleton, not_or]
        exact ⟨hp, Ne.symm hk⟩

end

end Listings

/-- What is listed below a path outside of caches and passes no cache is the same in both. -/
theorem SameOutsideCaches.filter_descendants {cache : String} {q : List String} {fs fs' : FileSystem}
    {es : List (String × Node)} (h : SameOutsideCaches cache q fs fs') (hq : fs.at? q = some (.dir es)) {names : List String}
    (hs : ∀ x ∈ q ++ names, IsStep x) (hnames : cache ∉ names) {depth : Nat} (hd : depth ≤ (q ++ names).length)
    (hdrop : cache ∉ (q ++ names).drop depth) :
    (fs.descendants (.absolute (q ++ names))).filter (fun c => !passesCache cache depth c) =
      (fs'.descendants (.absolute (q ++ names))).filter fun c => !passesCache cache depth c := by
  have hleft : (fs.directoryAt (.absolute (q ++ names))).withoutCaches cache =
      (fs'.directoryAt (.absolute (q ++ names))).withoutCaches cache := by
    rw [FileSystem.directoryAt, FileSystem.directoryAt]
    obtain ⟨e, he, he'⟩ | ⟨n, n', hn, hn', -, -, hleft⟩ := h.stat?_left hq hs hnames
    · rw [he, he']
    · rw [hn, hn']
      cases n with
      | file _ =>
        cases n' with
        | dir _ => cases hleft
        | _ => rfl
      | link _ =>
        cases n' with
        | dir _ => cases hleft
        | _ => rfl
      | dir _ =>
        cases n' with
        | dir _ => exact hleft
        | _ => cases hleft
  rw [FileSystem.descendants, FileSystem.descendants,
    Files.filter_descendants _ _ (h.wellFormed.directoryAt _) hd hdrop,
    Files.filter_descendants _ _ (h.wellFormed'.directoryAt _) hd hdrop, hleft]

end WorkspaceLint.Files
