import WorkspaceLint.Proofs.Files.Contents
import WorkspaceLint.Proofs.Files.Reach
import Mathlib.Data.List.Nodup

/-!
# The order in which directories are listed

Two file systems hold the same nodes and list the entries of their directories in any orders (`Relisted`). Look-ups give the same
in both, and walks meet the same, in some order: the files of a project are the same up to their order, and so is a full listing.
-/

namespace WorkspaceLint.Files

/-- The same tree twice, with the entries of each directory in any order. -/
structure Relisted (fs fs' : FileSystem) : Prop where
  /-- The first one is well formed. -/
  wellFormed : fs.WellFormed
  /-- So is the second one. -/
  wellFormed' : fs'.WellFormed
  /-- The same kind of node stands at every position. -/
  kinds : ∀ q, fs.kind? q = fs'.kind? q
  /-- Every file holds the same octets. -/
  contents : ∀ q, fs.content? q = fs'.content? q

namespace Node

/-! ## Links -/

mutual

/-- No link stands at two positions. -/
theorem linkPositions_nodup : ∀ n : Node, n.WellFormed → n.linkPositions.Nodup
  | .file _, _ => List.nodup_nil
  | .link _, _ => List.nodup_singleton _
  | .dir es, hw => entriesLinkPositions_nodup es ((wellFormed_dir es).1 hw).1 ((wellFormed_dir es).1 hw).2

theorem entriesLinkPositions_nodup : ∀ es : List (String × Node), (es.map (·.1)).Nodup →
    (∀ e ∈ es, IsEntryName e.1 ∧ e.2.WellFormed) → (entriesLinkPositions es).Nodup
  | [], _, _ => List.nodup_nil
  | (name, n) :: rest, hd, hw => by
    rw [List.map_cons, List.nodup_cons] at hd
    have hfirst := linkPositions_nodup n (hw (name, n) List.mem_cons_self).2
    have hrest := entriesLinkPositions_nodup rest hd.2 fun e he => hw e (List.mem_cons_of_mem _ he)
    rw [entriesLinkPositions, List.nodup_append']
    refine ⟨hfirst.map fun a b hab => (List.cons.inj hab).2, hrest, fun q hq hq' => ?_⟩
    obtain ⟨r, -, rfl⟩ := List.mem_map.1 hq
    obtain ⟨k, m, r', hm, -, he⟩ := mem_entriesLinkPositions.1 hq'
    cases he
    exact hd.1 (List.mem_map.2 ⟨_, hm, rfl⟩)

end

mutual

/-- A link stands at each of the positions of links. -/
theorem exists_link_of_mem : ∀ (n : Node) (q : List String), n.WellFormed → q ∈ n.linkPositions →
    ∃ t, n.at? q = some (.link t)
  | .file _, _, _, h => nomatch h
  | .link t, q, _, h => by
    rw [List.mem_singleton.1 h]
    exact ⟨t, rfl⟩
  | .dir es, q, hw, h => by
    obtain ⟨name, n, r, t, hn, rfl, ht⟩ := exists_link_of_mem_entries es q ((wellFormed_dir es).1 hw).2 h
    refine ⟨t, ?_⟩
    rw [at?_cons, child?_dir, hw.lookup hn]
    exact ht

theorem exists_link_of_mem_entries : ∀ (es : List (String × Node)) (q : List String),
    (∀ e ∈ es, IsEntryName e.1 ∧ e.2.WellFormed) → q ∈ entriesLinkPositions es →
      ∃ name n r t, (name, n) ∈ es ∧ q = name :: r ∧ n.at? r = some (.link t)
  | [], _, _, h => nomatch h
  | (k, m) :: rest, q, hw, h => by
    rw [entriesLinkPositions, List.mem_append] at h
    rcases h with h | h
    · obtain ⟨r, hr, rfl⟩ := List.mem_map.1 h
      obtain ⟨t, ht⟩ := exists_link_of_mem m r (hw (k, m) List.mem_cons_self).2 hr
      exact ⟨k, m, r, t, List.mem_cons_self, rfl, ht⟩
    · obtain ⟨name, n, r, t, hn, hq, ht⟩ :=
        exists_link_of_mem_entries rest q (fun e he => hw e (List.mem_cons_of_mem _ he)) h
      exact ⟨name, n, r, t, List.mem_cons_of_mem _ hn, hq, ht⟩

end

/-- Trees with the same kinds of nodes have as many links. -/
theorem linkCount_eq {n n' : Node} (hw : n.WellFormed) (hw' : n'.WellFormed)
    (h : ∀ q, (n.at? q).map kind = (n'.at? q).map kind) : n.linkCount = n'.linkCount := by
  have hsub : ∀ m m' : Node, m.WellFormed → (∀ q, (m.at? q).map kind = (m'.at? q).map kind) →
      ∀ q ∈ m.linkPositions, q ∈ m'.linkPositions := by
    intro m m' hm hk q hq
    obtain ⟨t, ht⟩ := exists_link_of_mem m q hm hq
    have hkq := hk q
    rw [ht, Option.map_some, eq_comm, Option.map_eq_some_iff] at hkq
    obtain ⟨c, hc, hkc⟩ := hkq
    obtain rfl := eq_link_of_kind hkc
    exact mem_linkPositions hc
  have hperm : n.linkPositions.Perm n'.linkPositions := by
    rw [List.perm_ext_iff_of_nodup (linkPositions_nodup n hw) (linkPositions_nodup n' hw')]
    exact fun q => ⟨hsub n n' hw h q, hsub n' n hw' (fun q => (h q).symm) q⟩
  rw [← linkPositions_length, ← linkPositions_length, hperm.length_eq]

end Node

namespace Relisted

variable {fs fs' : FileSystem}

theorem symm (h : Relisted fs fs') : Relisted fs' fs :=
  ⟨h.wellFormed', h.wellFormed, fun q => (h.kinds q).symm, fun q => (h.contents q).symm⟩

theorem sameShape (h : Relisted fs fs') : SameShape fs fs' :=
  ⟨h.kinds, Node.linkCount_eq h.wellFormed h.wellFormed' h.kinds⟩

theorem text? (h : Relisted fs fs') : fs.text? = fs'.text? := by
  funext path
  exact h.sameShape.text? fun r _ => h.contents r.position

/-! ## Walks -/

/-- A directory that is reached in one is reached in the other, with entries of the same names and kinds. -/
theorem reaches (h : Relisted fs fs') {keep : String → Bool} {root directory : Path} {es : List (String × Node)}
    (hr : fs.Reaches keep root directory es) :
    ∃ es', fs'.Reaches keep root directory es' ∧ ∀ name, (es.lookup name).map Node.kind = (es'.lookup name).map Node.kind := by
  obtain ⟨⟨n, names, hn, hes, hk, rfl⟩, hshort⟩ := hr
  obtain ⟨hlen, q, hroute⟩ := FileSystem.stat?_eq_ok.1 hn
  obtain ⟨n', hn', -⟩ := h.sameShape.find?_ok (FileSystem.find?_eq_ok.2 ⟨hlen, hroute⟩)
  have hroute' := (FileSystem.find?_eq_ok.1 hn').2
  have hat : fs.at? (q ++ names) = some (.dir es) := by
    rw [FileSystem.at?_append, (FileSystem.route_spec hroute).1]
    exact hes
  obtain ⟨es', hes', hkinds⟩ := h.sameShape.dir hat
  rw [FileSystem.at?_append, (FileSystem.route_spec hroute').1] at hes'
  exact ⟨es', ⟨⟨n', names, FileSystem.stat?_eq_ok.2 ⟨hlen, q, hroute'⟩, hes', hk, rfl⟩, hshort⟩, hkinds⟩

/-- What an entry of one kind is in one, an entry of the same name is in the other. -/
theorem lookup_of_kinds {es es' : List (String × Node)}
    (hk : ∀ name, (es.lookup name).map Node.kind = (es'.lookup name).map Node.kind) {name : String} {n : Node}
    (hn : es.lookup name = some n) : ∃ n', es'.lookup name = some n' ∧ n'.kind = n.kind := by
  have hkn := hk name
  rw [hn, Option.map_some, eq_comm, Option.map_eq_some_iff] at hkn
  exact hkn

theorem reachesFile (h : Relisted fs fs') {keep : String → Bool} {root file : Path} (hf : fs.ReachesFile keep root file) :
    fs'.ReachesFile keep root file := by
  obtain ⟨directory, es, name, n, hr, hn, hl, rfl⟩ := hf
  obtain ⟨es', hr', hk⟩ := h.reaches hr
  obtain ⟨n', hn', hkn⟩ := lookup_of_kinds hk hn
  exact ⟨directory, es', name, n', hr', hn', (h.sameShape.leadsToDir directory name hkn).symm.trans hl, rfl⟩

end Relisted

/-! ## Files of a project -/

/-- The files below a path can be listed when the path holds no null character. -/
theorem exists_projectFiles (fs : FileSystem) (rules : Rules) {root : Path} (hnul : '\x00' ∉ root.text.toList) :
    ∃ files, projectFiles fs rules root = .ok files := by
  obtain ⟨visits, hvisits⟩ := FileSystem.exists_walkFrom fs rules.enters hnul
  exact ⟨_, projectFiles_eq_ok.2 ⟨visits, hvisits, rfl⟩⟩

/-- The files of a project are listed once each: a directory holds no name twice, and two directories have no path of a file in
common. -/
theorem projectFiles_nodup {fs : FileSystem} (hw : fs.WellFormed) {rules : Rules} {root : Path} {files : List Path}
    (h : projectFiles fs rules root = .ok files) : files.Nodup := by
  obtain ⟨visits, hv, rfl⟩ := projectFiles_eq_ok.1 h
  rw [List.nodup_flatMap]
  constructor
  · intro v hmem
    obtain ⟨directory, es, hr, rfl⟩ := (FileSystem.mem_walkFrom_iff hw hv).1 hmem
    have hnames := ((Node.wellFormed_dir es).1 (hr.wellFormed hw)).1
    have hfiles : (fs.visit rules.enters directory es).files.Nodup :=
      hnames.sublist (List.filter_sublist.map _)
    refine hfiles.map fun a b (hab : directory.child a = directory.child b) => ?_
    rw [← Path.child_name directory a, hab, Path.child_name]
  · refine (List.pairwise_map.1 (FileSystem.walkFrom_paths_nodup hw hv)).imp fun {v v'} hne p hp hp' => hne ?_
    obtain ⟨a, -, rfl⟩ := List.mem_map.1 hp
    obtain ⟨b, -, hb⟩ := List.mem_map.1 hp'
    rw [← Path.child_parent v.path a, ← hb, Path.child_parent]

namespace Relisted

variable {fs fs' : FileSystem}

/-- The files of a project are the same in both, in some order, or cannot be listed in either. -/
theorem projectFiles (h : Relisted fs fs') (rules : Rules) (root : Path) :
    (∃ e, WorkspaceLint.projectFiles fs rules root = .error e ∧ WorkspaceLint.projectFiles fs' rules root = .error e) ∨
      ∃ files files', WorkspaceLint.projectFiles fs rules root = .ok files ∧
        WorkspaceLint.projectFiles fs' rules root = .ok files' ∧ files.Perm files' := by
  have hperm : ∀ {files files'}, WorkspaceLint.projectFiles fs rules root = .ok files →
      WorkspaceLint.projectFiles fs' rules root = .ok files' → files.Perm files' := by
    intro files files' hf hf'
    rw [List.perm_ext_iff_of_nodup (projectFiles_nodup h.wellFormed hf) (projectFiles_nodup h.wellFormed' hf')]
    intro p
    rw [mem_projectFiles_iff h.wellFormed hf, mem_projectFiles_iff h.wellFormed' hf']
    exact ⟨h.reachesFile, h.symm.reachesFile⟩
  by_cases hnul : '\x00' ∈ root.text.toList
  · left
    refine ⟨.nullCharacter, ?_, ?_⟩
    all_goals
      rw [WorkspaceLint.projectFiles, FileSystem.walkFrom, if_pos (by simpa using hnul)]
      rfl
  · right
    obtain ⟨files, hf⟩ := exists_projectFiles fs rules hnul
    obtain ⟨files', hf'⟩ := exists_projectFiles fs' rules hnul
    exact ⟨files, files', hf, hf', hperm hf hf'⟩

/-- What is listed in full below a path in one is listed in the other. -/
theorem mem_descendants (h : Relisted fs fs') {path c : Path} (hc : c ∈ fs.descendants path) : c ∈ fs'.descendants path := by
  rw [FileSystem.descendants, FileSystem.directoryAt] at hc
  cases hs : fs.stat? path with
  | error e =>
    rw [hs] at hc
    cases hc
  | ok n =>
    rw [hs] at hc
    cases n with
    | file _ => cases hc
    | link _ => cases hc
    | dir es =>
      obtain ⟨names, m, hne, hm, rfl⟩ := (Node.mem_descendants_iff (h.wellFormed.stat? hs)).1 hc
      obtain ⟨hlen, q, hroute⟩ := FileSystem.stat?_eq_ok.1 hs
      obtain ⟨n', hn', hk⟩ := h.sameShape.find?_ok (FileSystem.find?_eq_ok.2 ⟨hlen, hroute⟩)
      obtain ⟨es', rfl⟩ := Node.eq_dir_of_kind hk
      have hroute' := (FileSystem.find?_eq_ok.1 hn').2
      have hs' : fs'.stat? path = .ok (.dir es') := FileSystem.stat?_eq_ok.2 ⟨hlen, q, hroute'⟩
      have hat : fs.at? (q ++ names) = some m := by
        rw [FileSystem.at?_append, (FileSystem.route_spec hroute).1]
        exact hm
      obtain ⟨m', hm', -⟩ := h.sameShape.at? hat
      rw [FileSystem.at?_append, (FileSystem.route_spec hroute').1] at hm'
      rw [FileSystem.descendants, FileSystem.directoryAt_of_stat? hs', Node.mem_descendants_iff (h.wellFormed'.stat? hs')]
      exact ⟨names, m', hne, hm', rfl⟩

/-- The directory that a path leads to holds entries of the same names in both, in some order. -/
theorem entryNames_perm (h : Relisted fs fs') (path : Path) :
    ((fs.directoryAt path).entries.map (·.1)).Perm ((fs'.directoryAt path).entries.map (·.1)) := by
  rw [FileSystem.directoryAt, FileSystem.directoryAt]
  cases hs : fs.stat? path with
  | error e =>
    obtain ⟨e', -, he'⟩ | ⟨n, n', hn, -, -⟩ := h.sameShape.stat? path
    · rw [he']
    · rw [hs] at hn
      cases hn
  | ok n =>
    obtain ⟨hlen, q, hroute⟩ := FileSystem.stat?_eq_ok.1 hs
    obtain ⟨n', hn', hk⟩ := h.sameShape.find?_ok (FileSystem.find?_eq_ok.2 ⟨hlen, hroute⟩)
    have hs' : fs'.stat? path = .ok n' := FileSystem.stat?_eq_ok.2 ⟨hlen, q, (FileSystem.find?_eq_ok.1 hn').2⟩
    rw [hs']
    cases n with
    | file _ =>
      obtain ⟨_, rfl⟩ := Node.eq_file_of_kind hk
      exact List.Perm.refl _
    | link _ =>
      obtain rfl := Node.eq_link_of_kind hk
      exact List.Perm.refl _
    | dir es =>
      obtain ⟨es', rfl⟩ := Node.eq_dir_of_kind hk
      have hw := h.wellFormed.stat? hs
      have hw' := h.wellFormed'.stat? hs'
      have hq := (FileSystem.route_spec hroute).1
      obtain ⟨es'', hq', hkinds⟩ := h.sameShape.dir hq
      rw [(FileSystem.route_spec (FileSystem.find?_eq_ok.1 hn').2).1] at hq'
      cases hq'
      have hmem : ∀ {es es' : List (String × Node)}, (Node.dir es).WellFormed → (Node.dir es').WellFormed →
          (∀ name, (es.lookup name).map Node.kind = (es'.lookup name).map Node.kind) →
          ∀ name ∈ es.map (·.1), name ∈ es'.map (·.1) := by
        intro es es' hwe hwe' hkind name hname
        obtain ⟨⟨_, m⟩, hm, rfl⟩ := List.mem_map.1 hname
        obtain ⟨m', hm', -⟩ := lookup_of_kinds hkind (hwe.lookup hm)
        exact List.mem_map.2 ⟨_, hwe'.mem_iff_lookup.2 hm', rfl⟩
      refine (List.perm_ext_iff_of_nodup ((Node.wellFormed_dir es).1 hw).1 ((Node.wellFormed_dir es').1 hw').1).2 fun name => ?_
      exact ⟨hmem hw hw' hkinds name, hmem hw' hw (fun name => (hkinds name).symm) name⟩

end Relisted

/-! ## One directory listed in another order -/

namespace Node

/-- The order of entries does not show in what stands under a name. -/
theorem lookup_eq_of_perm {es es' : List (String × Node)} (hw : (Node.dir es).WellFormed) (h : es.Perm es')
    (name : String) : es.lookup name = es'.lookup name := by
  have hw' : (Node.dir es').WellFormed := by
    rw [wellFormed_dir] at hw ⊢
    exact ⟨(h.map (·.1)).nodup_iff.1 hw.1, fun e he => hw.2 e (h.mem_iff.2 he)⟩
  refine Option.ext fun n => ?_
  rw [← hw.mem_iff_lookup, ← hw'.mem_iff_lookup, h.mem_iff]

/-- A directory with entries under the same names, put in the place of a directory, leaves everything as it is. -/
theorem at?_put_dir {es es' : List (String × Node)} (he : ∀ name, es.lookup name = es'.lookup name) (p : List String) :
    ∀ {n : Node}, n.at? p = some (.dir es) → ∀ q,
      ((Node.put (.dir es') p n).at? q).map kind = (n.at? q).map kind ∧
        ((Node.put (.dir es') p n).at? q).bind content? = (n.at? q).bind content? := by
  induction p with
  | nil =>
    intro n h q
    cases h
    cases q with
    | nil => exact ⟨rfl, rfl⟩
    | cons name rest =>
      rw [put, at?_cons, at?_cons, child?_dir, child?_dir, he]
      exact ⟨rfl, rfl⟩
  | cons name rest ih =>
    intro n h q
    obtain ⟨es₀, c, rfl, hc, hrest⟩ := eq_dir_of_at?_cons h
    rw [put, child?_dir, hc, Option.getD_some]
    cases q with
    | nil => exact ⟨rfl, rfl⟩
    | cons k r =>
      rw [at?_cons, at?_cons, child?_dir, child?_dir, entries, lookup_putEntry]
      by_cases hk : k = name
      · subst hk
        rw [if_pos rfl, hc, Option.bind_some, Option.bind_some]
        exact ih hrest r
      · rw [if_neg hk]
        exact ⟨rfl, rfl⟩

end Node

/-- A tree with the entries of one directory in another order is the same tree. -/
theorem relisted_putAt {fs : FileSystem} {p : List String} {es es' : List (String × Node)} (hw : fs.WellFormed)
    (hw' : (fs.putAt p (.dir es')).WellFormed) (h : fs.at? p = some (.dir es)) (hperm : es.Perm es') :
    Relisted fs (fs.putAt p (.dir es')) := by
  have hroot : (fs.putAt p (.dir es')).root = Node.put (.dir es') p fs.root := by
    cases p with
    | nil => rfl
    | cons name rest => rfl
  have hlookup := Node.lookup_eq_of_perm (Node.WellFormed.below hw h).1 hperm
  refine ⟨hw, hw', fun q => ?_, fun q => ?_⟩
  · rw [FileSystem.kind?, FileSystem.kind?, FileSystem.at?, FileSystem.at?, hroot, (Node.at?_put_dir hlookup p h q).1]
  · rw [FileSystem.content?, FileSystem.content?, FileSystem.at?, FileSystem.at?, hroot, (Node.at?_put_dir hlookup p h q).2]

end WorkspaceLint.Files
