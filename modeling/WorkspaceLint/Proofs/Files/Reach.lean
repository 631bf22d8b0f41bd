import WorkspaceLint.Files.Reading
import WorkspaceLint.Proofs.Files.Canonical
import WorkspaceLint.Proofs.Files.Walks

/-!
# What a path reaches

`LeadsDown` says that kept names lead from a path to a directory, by what stands in the tree alone, and `Reaches` that a walk comes
there: the path of the directory is not too long to be listed. A walk visits exactly what it reaches (`mem_walkFrom_iff`), the
files of a project are the entries of what is reached (`mem_projectFiles_iff`), and an entry of a directory that is reached is
found by its path (`lookup_of_leadsTo`).
-/

namespace WorkspaceLint.Files

namespace FileSystem

/-- Kept names lead, through directories only, from the directory that a path leads to down to a directory with some entries. -/
def LeadsDown (fs : FileSystem) (keep : String → Bool) (root directory : Path) (entries : List (String × Node)) : Prop :=
  ∃ n names, fs.stat? root = .ok n ∧ n.at? names = some (.dir entries) ∧ (∀ x ∈ names, keep x = true) ∧
    directory = root.below names

/-- A walk from a path comes to a directory with some entries: kept names lead there, and the path of the directory is not too
long. -/
def Reaches (fs : FileSystem) (keep : String → Bool) (root directory : Path) (entries : List (String × Node)) : Prop :=
  fs.LeadsDown keep root directory entries ∧ directory.text.utf8ByteSize < pathBytesLimit

/-- An entry, of a directory that a walk from a path comes to, that neither is nor leads to a directory. -/
def ReachesFile (fs : FileSystem) (keep : String → Bool) (root file : Path) : Prop :=
  ∃ directory entries name n, fs.Reaches keep root directory entries ∧ entries.lookup name = some n ∧
    fs.leadsToDir directory name n = false ∧ file = directory.child name

/-! ## Look-ups by kind -/

theorem stat?_eq_ok {fs : FileSystem} {path : Path} {n : Node} :
    fs.stat? path = .ok n ↔ path.text.utf8ByteSize < pathBytesLimit ∧ ∃ q, fs.route path = .ok ⟨q, n⟩ := by
  rw [stat?]
  constructor
  · intro h
    cases hr : fs.find? path true with
    | error e => rw [hr] at h; cases h
    | ok r =>
      rw [hr] at h
      cases h
      obtain ⟨hlen, hroute⟩ := find?_eq_ok.1 hr
      exact ⟨hlen, r.position, hroute⟩
  · rintro ⟨hlen, q, hr⟩
    rw [find?_eq_ok.2 ⟨hlen, hr⟩]
    rfl

/-- A path of too many bytes leads nowhere. -/
theorem stat?_of_tooLong {fs : FileSystem} {path : Path} (h : pathBytesLimit ≤ path.text.utf8ByteSize) :
    fs.stat? path = .error .nameTooLong := by
  rw [stat?, find?_eq_route, if_pos h]
  rfl

/-- What a path leads to is well formed, and so are the names of its position. -/
theorem WellFormed.route {fs : FileSystem} (h : fs.WellFormed) {path : Path} {r : Found} (hr : fs.route path = .ok r) :
    r.node.WellFormed ∧ ∀ x ∈ r.position, IsEntryName x :=
  Node.WellFormed.below h (route_spec hr).1

theorem WellFormed.stat? {fs : FileSystem} (h : fs.WellFormed) {path : Path} {n : Node} (hn : fs.stat? path = .ok n) :
    n.WellFormed := by
  obtain ⟨-, q, hr⟩ := stat?_eq_ok.1 hn
  exact (h.route hr).1

/-- The names of a look-up that succeeds in a well-formed file system hold no null character. -/
theorem nul_not_mem_of_walk {fs : FileSystem} (hw : fs.WellFormed) (k : Nat) : ∀ {p names : List String} {r : Found},
    fs.walk true k p names = .ok r → ∀ x ∈ names, '\x00' ∉ x.toList := by
  induction k using Nat.strongRecOn with
  | _ k ihk =>
    intro p names
    induction names generalizing p with
    | nil => simp
    | cons name rest ih =>
      intro r h
      obtain ⟨es, hp, hc⟩ := walk_cons_ok h
      have hdir : (Node.dir es).WellFormed := (Node.WellFormed.below hw hp).1
      rw [List.forall_mem_cons]
      rcases hc with ⟨rfl, hr⟩ | ⟨rfl, hr⟩ | ⟨-, ⟨n, hn, -⟩, hr⟩ | ⟨j, target, rfl, -, hn, hr⟩
      · exact ⟨by decide, ih hr⟩
      · exact ⟨by decide, ih hr⟩
      · exact ⟨(hdir.entry (Node.mem_of_lookup hn)).1.2.2.2.2.1, ih hr⟩
      · exact ⟨(hdir.entry (Node.mem_of_lookup hn)).1.2.2.2.2.1, fun x hx =>
          ihk j (Nat.lt_succ_self j) hr x (List.mem_append_right _ hx)⟩

/-- A path that leads somewhere in a well-formed file system has no null character. -/
theorem nul_not_mem_of_route {fs : FileSystem} (hw : fs.WellFormed) {path : Path} {r : Found} (h : fs.route path = .ok r) :
    '\x00' ∉ path.text.toList :=
  Path.nul_not_mem_text.2 (nul_not_mem_of_walk hw maxLinks h)

theorem nul_not_mem_of_stat? {fs : FileSystem} (hw : fs.WellFormed) {path : Path} {n : Node} (h : fs.stat? path = .ok n) :
    '\x00' ∉ path.text.toList := by
  obtain ⟨-, q, hr⟩ := stat?_eq_ok.1 h
  exact nul_not_mem_of_route hw hr

/-- A path leads to a node of some kind. -/
theorem leadsTo_eq_true {fs : FileSystem} {kind : Node → Bool} {path : Path} :
    fs.leadsTo kind path = .ok true ↔ '\x00' ∉ path.text.toList ∧ ∃ n, fs.stat? path = .ok n ∧ kind n = true := by
  rw [leadsTo]
  by_cases hnul : '\x00' ∈ path.text.toList
  · rw [if_pos (by simpa using hnul)]
    exact ⟨fun h => (nomatch h), fun h => absurd hnul h.1⟩
  · rw [if_neg (by simpa using hnul)]
    cases hs : fs.stat? path with
    | ok n => simp [hnul]
    | error e =>
      constructor
      · intro h
        dsimp only at h
        split at h
        · nomatch h
        · nomatch h
      · rintro ⟨-, n, hn, -⟩
        nomatch hn

theorem isFile?_eq_true {fs : FileSystem} {path : Path} :
    fs.isFile? path = .ok true ↔ '\x00' ∉ path.text.toList ∧ ∃ content, fs.stat? path = .ok (.file content) := by
  rw [isFile?, leadsTo_eq_true]
  refine and_congr_right fun _ => ⟨?_, ?_⟩
  · rintro ⟨n, hn, hk⟩
    cases n with
    | file content => exact ⟨content, hn⟩
    | link _ => nomatch hk
    | dir _ => nomatch hk
  · rintro ⟨content, hn⟩
    exact ⟨_, hn, rfl⟩

theorem isDir?_eq_true {fs : FileSystem} {path : Path} :
    fs.isDir? path = .ok true ↔ '\x00' ∉ path.text.toList ∧ ∃ es, fs.stat? path = .ok (.dir es) := by
  rw [isDir?, leadsTo_eq_true]
  refine and_congr_right fun _ => ⟨?_, ?_⟩
  · rintro ⟨n, hn, hk⟩
    cases n with
    | dir es => exact ⟨es, hn⟩
    | file _ => nomatch hk
    | link _ => nomatch hk
  · rintro ⟨es, hn⟩
    exact ⟨_, hn, rfl⟩

/-- A look-up by kind that has an answer finds what the path leads to, however the path is written. -/
theorem leadsTo_of_route {fs : FileSystem} {kind : Node → Bool} {path : Path} {r : Found} {b : Bool}
    (hr : fs.route path = .ok r) (hnul : '\x00' ∉ path.text.toList) (h : fs.leadsTo kind path = .ok b) :
    b = kind r.node ∧ fs.stat? path = .ok r.node := by
  rw [leadsTo, if_neg (by simpa using hnul)] at h
  by_cases hlen : path.text.utf8ByteSize < pathBytesLimit
  · have hs : fs.stat? path = .ok r.node := stat?_eq_ok.2 ⟨hlen, r.position, hr⟩
    rw [hs] at h
    cases h
    exact ⟨rfl, hs⟩
  · rw [stat?_of_tooLong (Nat.le_of_not_lt hlen)] at h
    cases h

/-- A path that can be looked up: no name on the way is too long. A path with a null character leads nowhere. -/
def CanLookUp (fs : FileSystem) (path : Path) : Prop :=
  '\x00' ∈ path.text.toList ∨ fs.stat? path ≠ .error .nameTooLong

/-- A look-up by kind has an answer when the path can be looked up. -/
theorem exists_leadsTo_iff {fs : FileSystem} {kind : Node → Bool} {path : Path} :
    (∃ b, fs.leadsTo kind path = .ok b) ↔ fs.CanLookUp path := by
  rw [leadsTo, CanLookUp]
  by_cases hnul : '\x00' ∈ path.text.toList
  · rw [if_pos (by simpa using hnul)]
    exact ⟨fun _ => Or.inl hnul, fun _ => ⟨false, rfl⟩⟩
  · rw [if_neg (by simpa using hnul)]
    cases hs : fs.stat? path with
    | ok n => simp
    | error fault => cases fault <;> simp [hnul, Fault.meansAbsent]

/-- Nothing can be looked up under a name that is too long. -/
theorem leadsTo_tooLong {fs : FileSystem} {q : List String} {es : List (String × Node)} {name : String}
    (hq : fs.at? q = some (.dir es)) (hs : ∀ x ∈ q, IsStep x) (hdots : name ≠ "." ∧ name ≠ "..")
    (hlen : maxNameBytes < name.utf8ByteSize) (hnul : ∀ x ∈ q ++ [name], '\x00' ∉ x.toList) (kind : Node → Bool) :
    fs.leadsTo kind (.absolute (q ++ [name])) = .error (.lookup ⟨.nameTooLong, .absolute (q ++ [name])⟩) := by
  have hroute : fs.route (.absolute (q ++ [name])) = .error .nameTooLong := by
    have hdir : fs.route (.absolute q) = .ok ⟨q, .dir es⟩ := route_of_at? hq hs rfl
    obtain ⟨k, -, hk⟩ := walk_append true maxLinks hdir
    have hwalk : fs.walk true k q [name] = .error .nameTooLong := by
      cases k <;> simp [walk, walkNames, hq, hdots.1, hdots.2, hlen]
    exact (hk [name] (Or.inl rfl)).trans hwalk
  have hstat : fs.stat? (.absolute (q ++ [name])) = .error .nameTooLong := by
    rw [stat?, find?_eq_route, hroute, ite_self]
    rfl
  have hfree : '\x00' ∉ (Path.absolute (q ++ [name])).text.toList := Path.nul_not_mem_text.2 hnul
  rw [leadsTo, if_neg (by simpa using hfree), hstat]
  rfl

theorem directoryAt_of_stat? {fs : FileSystem} {path : Path} {es : List (String × Node)}
    (h : fs.stat? path = .ok (.dir es)) : fs.directoryAt path = .dir es := by
  rw [directoryAt, h]

/-- Where the path of an entry leads somewhere, the entry is listed in the directory that its name stands in. -/
theorem mem_entries_of_stat?_child {fs : FileSystem} {path : Path} {name : String} {n : Node} (hdots : name ≠ "." ∧ name ≠ "..")
    (h : fs.stat? (path.child name) = .ok n) : name ∈ (fs.directoryAt path).entries.map (·.1) := by
  obtain ⟨hlen, q, hroute⟩ := stat?_eq_ok.1 h
  rw [route, Path.child_eq_below, Path.below_parts] at hroute
  obtain ⟨found, hfound⟩ := exists_walk_of_append maxLinks hroute
  have hdirectory : fs.route path = .ok found := hfound
  obtain ⟨k, -, hrest⟩ := walk_append true maxLinks hfound
  rw [hrest [name] (Or.inl rfl)] at hroute
  obtain ⟨es, hes, ⟨hdot, -⟩ | ⟨hup, -⟩ | ⟨-, ⟨m, hm, -⟩, -⟩ | ⟨-, target, -, -, hm, -⟩⟩ := walk_cons_ok hroute
  · exact absurd hdot hdots.1
  · exact absurd hup hdots.2
  all_goals
    have hnode : found.node = .dir es := Option.some.inj ((route_spec hdirectory).1.symm.trans hes)
    have hstat : fs.stat? path = .ok (.dir es) :=
      stat?_eq_ok.2 ⟨Path.utf8ByteSize_text_lt_of_below (by decide) hlen, found.position, hnode ▸ hdirectory⟩
    rw [directoryAt_of_stat? hstat]
    exact List.mem_map_of_mem (Node.mem_of_lookup hm)

/-- The directory that a path leads to is well formed. -/
theorem WellFormed.directoryAt {fs : FileSystem} (hw : fs.WellFormed) (path : Path) :
    (fs.directoryAt path).WellFormed := by
  rw [FileSystem.directoryAt]
  split
  · rename_i es hes
    exact hw.stat? hes
  · exact (Node.wellFormed_dir []).2 ⟨List.nodup_nil, by simp⟩

/-- Where something is listed below a path the path leads to a directory. -/
theorem isDir?_of_mem_descendants {fs : FileSystem} {path c : Path} (hc : c ∈ fs.descendants path)
    (hnul : '\x00' ∉ path.text.toList) : fs.isDir? path = .ok true := by
  rw [descendants, directoryAt] at hc
  split at hc
  · rename_i es hes
    exact isDir?_eq_true.2 ⟨hnul, es, hes⟩
  · nomatch hc

/-- A path of too many bytes cannot be looked up. -/
theorem CanLookUp.short {fs : FileSystem} {path : Path} (h : fs.CanLookUp path) (hnul : '\x00' ∉ path.text.toList) :
    path.text.utf8ByteSize < pathBytesLimit := by
  by_contra hlong
  exact h.resolve_left hnul (stat?_of_tooLong (Nat.le_of_not_lt hlong))

/-- The text of a file that stands where its path is written is the text of its octets. -/
theorem text?_of_at? {fs : FileSystem} (hw : fs.WellFormed) {position : List String} {content : List UInt8}
    (h : fs.at? position = some (.file content)) {source : List Char} (ht : fs.text? (.absolute position) = .ok source) :
    ∃ chars, Text.decode content = .ok chars ∧ source = Text.unifyNewlines chars := by
  have hr : fs.route (.absolute position) = .ok ⟨position, .file content⟩ :=
    route_of_at? h (fun x hx => ((Node.WellFormed.below hw h).2 x hx).isStep) rfl
  rw [text?, octets?] at ht
  cases hs : fs.stat? (.absolute position) with
  | error e => rw [hs] at ht; nomatch ht
  | ok n =>
    obtain ⟨-, q, hq⟩ := stat?_eq_ok.1 hs
    rw [hr] at hq
    cases hq
    rw [hs] at ht
    dsimp only at ht
    split at ht
    · nomatch ht
    · rename_i chars hd
      cases ht
      exact ⟨chars, hd, rfl⟩

/-! ## Directories that are reached -/

/-- A directory that is reached is where its path leads, however long the path is. -/
theorem Reaches.route {fs : FileSystem} {keep : String → Bool} {root directory : Path} {es : List (String × Node)}
    (hw : fs.WellFormed) (h : fs.Reaches keep root directory es) : ∃ q, fs.route directory = .ok ⟨q, .dir es⟩ := by
  obtain ⟨⟨n, names, hn, hes, -, rfl⟩, -⟩ := h
  obtain ⟨-, q, hr⟩ := stat?_eq_ok.1 hn
  have hs : ∀ x ∈ names, IsStep x := fun x hx => ((Node.WellFormed.below (hw.stat? hn) hes).2 x hx).isStep
  exact ⟨_, route_below hr hs hes rfl⟩

/-- A walk from a canonical path starts at the directory that stands there. -/
theorem Reaches.exists_at? {fs : FileSystem} {keep : String → Bool} {root directory : Path} {entries : List (String × Node)}
    (hroot : fs.resolve root = .ok root) (h : fs.Reaches keep root directory entries) :
    ∃ q es names, root = .absolute q ∧ fs.at? q = some (.dir es) ∧ (Node.dir es).at? names = some (.dir entries) ∧
      directory = root.below names := by
  obtain ⟨⟨n, names, hn, hat, -, rfl⟩, -⟩ := h
  obtain ⟨-, q, hr⟩ := stat?_eq_ok.1 hn
  have hnul : '\x00' ∉ root.text.toList := by
    intro hmem
    rw [resolve, if_pos (by simpa using hmem)] at hroot
    cases hroot
  rw [resolve_of_route hr hnul] at hroot
  cases hroot
  have hdir : ∃ es, n = .dir es := by
    cases names with
    | nil => exact ⟨entries, Option.some.inj hat⟩
    | cons name rest =>
      obtain ⟨es, -, hes, -⟩ := Node.eq_dir_of_at?_cons hat
      exact ⟨es, hes⟩
  obtain ⟨es, rfl⟩ := hdir
  exact ⟨q, es, names, rfl, (route_spec hr).1, hat, rfl⟩

/-- A directory that is reached from a canonical path stands at its own place, below that path along names that entries can
have. -/
theorem Reaches.exists_place {fs : FileSystem} (hw : fs.WellFormed) {keep : String → Bool} {root directory : Path}
    {es : List (String × Node)} (hroot : fs.resolve root = .ok root) (h : fs.Reaches keep root directory es) :
    ∃ q names, root = .absolute q ∧ directory = .absolute (q ++ names) ∧ (∀ x ∈ q ++ names, IsEntryName x) ∧
      fs.at? (q ++ names) = some (.dir es) := by
  obtain ⟨q, entries, names, rfl, hq, hat, rfl⟩ := h.exists_at? hroot
  have hplace : fs.at? (q ++ names) = some (.dir es) := by
    rw [at?_append, hq]
    exact hat
  exact ⟨q, names, rfl, rfl, (Node.WellFormed.below hw hplace).2, hplace⟩

/-- A directory that is reached from a resolved path has a path along names of entries. -/
theorem Reaches.exists_names {fs : FileSystem} (hw : fs.WellFormed) {path root directory : Path}
    (hroot : fs.resolve path = .ok root) {keep : String → Bool} {es : List (String × Node)}
    (h : fs.Reaches keep root directory es) : ∃ place, directory = .absolute place ∧ ∀ x ∈ place, IsEntryName x := by
  obtain ⟨⟨n, names, hn, hat, -, rfl⟩, -⟩ := h
  obtain ⟨-, q, hr⟩ := stat?_eq_ok.1 hn
  obtain ⟨place, rfl, hplace⟩ := exists_place_of_resolve hw hroot hr
  exact ⟨place ++ names, rfl, List.forall_mem_append.2 ⟨hplace, (Node.WellFormed.below (hw.stat? hn) hat).2⟩⟩

theorem Reaches.wellFormed {fs : FileSystem} {keep : String → Bool} {root directory : Path} {es : List (String × Node)}
    (hw : fs.WellFormed) (h : fs.Reaches keep root directory es) : (Node.dir es).WellFormed := by
  obtain ⟨⟨n, names, hn, hes, -, -⟩, -⟩ := h
  exact (Node.WellFormed.below (hw.stat? hn) hes).1

/-- A file that is reached lies below the path it is reached from, along names that entries can have. -/
theorem ReachesFile.exists_below {fs : FileSystem} (hw : fs.WellFormed) {keep : String → Bool} {root path : Path}
    (h : fs.ReachesFile keep root path) : ∃ names, path = root.below names ∧ ∀ x ∈ names, IsEntryName x := by
  obtain ⟨directory, entries, name, n, ⟨⟨m, names, hm, hat, -, rfl⟩, -⟩, hn, -, rfl⟩ := h
  obtain ⟨hdir, hnames⟩ := Node.WellFormed.below (hw.stat? hm) hat
  refine ⟨names ++ [name], Path.below_child root names name, fun x hx => ?_⟩
  rcases List.mem_append.1 hx with hx | hx
  · exact hnames x hx
  · rw [List.mem_singleton.1 hx]
    exact (hdir.entry (Node.mem_of_lookup hn)).1

/-- A file that is reached from a directory given by its position is an entry of a directory that stands in the tree. -/
theorem ReachesFile.exists_at? {fs : FileSystem} (hw : fs.WellFormed) {keep : String → Bool} {q : List String}
    {es : List (String × Node)} (hq : fs.at? q = some (.dir es)) {path : Path}
    (h : fs.ReachesFile keep (.absolute q) path) :
    ∃ place entries name, path = .absolute (place ++ [name]) ∧ fs.at? place = some (.dir entries) ∧ IsEntryName name := by
  obtain ⟨directory, entries, name, n, ⟨⟨m, names, hm, hat, -, rfl⟩, -⟩, hn, -, rfl⟩ := h
  have hr : fs.route (.absolute q) = .ok ⟨q, .dir es⟩ := route_of_at? hq (hw.isStep hq) rfl
  obtain ⟨-, q', hr'⟩ := stat?_eq_ok.1 hm
  rw [hr] at hr'
  cases hr'
  have hplace : fs.at? (q ++ names) = some (.dir entries) := by
    rw [at?_append, hq]
    exact hat
  refine ⟨q ++ names, entries, name, rfl, hplace, ?_⟩
  exact ((Node.WellFormed.below hw hplace).1.entry (Node.mem_of_lookup hn)).1

/-- A path to something in a directory that is reached has an entry there; a path to nothing but a directory or a file tells
which of them the entry is or leads to. -/
theorem Reaches.lookup_of_leadsTo {fs : FileSystem} {keep : String → Bool} {root directory : Path}
    {es : List (String × Node)} (hw : fs.WellFormed) (h : fs.Reaches keep root directory es) {kind : Node → Bool}
    {name : String} (hs : IsStep name) (hl : fs.leadsTo kind (directory.child name) = .ok true) :
    ∃ n m, es.lookup name = some n ∧ fs.stat? (directory.child name) = .ok m ∧ kind m = true ∧
      fs.leadsToDir directory name n = m.isDir := by
  obtain ⟨-, m, hm, hk⟩ := leadsTo_eq_true.1 hl
  obtain ⟨q, hr⟩ := h.route hw
  cases hn : es.lookup name with
  | none =>
    have hroute := route_child_missing hr rfl hs hn
    obtain ⟨-, q', hr'⟩ := stat?_eq_ok.1 hm
    rw [hroute] at hr'
    nomatch hr'
  | some n =>
    refine ⟨n, m, rfl, hm, hk, ?_⟩
    have hat : (Node.dir es).at? [name] = some n := by
      rw [Node.at?_cons, Node.child?_dir, hn]
      rfl
    have key : n.target? = none → m = n := by
      intro ht
      have hroute := route_below hr (by simpa using hs) hat ht
      obtain ⟨-, q', hr'⟩ := stat?_eq_ok.1 hm
      rw [Path.child_eq_below, hroute] at hr'
      cases hr'
      rfl
    cases n with
    | file _ => rw [key rfl]; rfl
    | dir _ => rw [key rfl]; rfl
    | link _ => rw [leadsToDir, hm]

/-! ## Walks -/

/-- A walk ends normally when its path holds no null character: it visits what the path leads to, and nothing when the path leads
nowhere. -/
theorem walkFrom_eq_ok {fs : FileSystem} {keep : String → Bool} {root : Path} {visits : List Visit} :
    fs.walkFrom keep root = .ok visits ↔ '\x00' ∉ root.text.toList ∧
      ((∃ n, fs.stat? root = .ok n ∧ visits = fs.visits keep root n) ∨ ∃ fault, fs.stat? root = .error fault ∧ visits = []) := by
  rw [walkFrom]
  by_cases hnul : '\x00' ∈ root.text.toList
  · rw [if_pos (by simpa using hnul)]
    exact ⟨nofun, fun h => absurd hnul h.1⟩
  · rw [if_neg (by simpa using hnul)]
    cases fs.stat? root with
    | ok n => simp [hnul, eq_comm]
    | error fault => simp [hnul, eq_comm]

/-- A walk can start where the path holds no null character. -/
theorem exists_walkFrom (fs : FileSystem) (keep : String → Bool) {root : Path} (hnul : '\x00' ∉ root.text.toList) :
    ∃ visits, fs.walkFrom keep root = .ok visits := by
  cases hn : fs.stat? root with
  | ok n => exact ⟨_, walkFrom_eq_ok.2 ⟨hnul, Or.inl ⟨n, hn, rfl⟩⟩⟩
  | error fault => exact ⟨_, walkFrom_eq_ok.2 ⟨hnul, Or.inr ⟨fault, hn, rfl⟩⟩⟩

/-- A walk from a path visits no directory twice. -/
theorem walkFrom_paths_nodup {fs : FileSystem} (hw : fs.WellFormed) {keep : String → Bool} {root : Path} {visits : List Visit}
    (h : fs.walkFrom keep root = .ok visits) : (visits.map (·.path)).Nodup := by
  obtain ⟨-, ⟨n, hn, rfl⟩ | ⟨-, -, rfl⟩⟩ := walkFrom_eq_ok.1 h
  · exact visits_paths_nodup fs keep n root (hw.stat? hn)
  · exact List.nodup_nil

/-- A walk visits exactly the directories that it reaches. -/
theorem mem_walkFrom_iff {fs : FileSystem} (hw : fs.WellFormed) {keep : String → Bool} {root : Path} {visits : List Visit}
    (h : fs.walkFrom keep root = .ok visits) {v : Visit} :
    v ∈ visits ↔ ∃ directory es, fs.Reaches keep root directory es ∧ v = fs.visit keep directory es := by
  obtain ⟨-, ⟨n, hn, rfl⟩ | ⟨fault, hn, rfl⟩⟩ := walkFrom_eq_ok.1 h
  · rw [mem_visits_iff (hw.stat? hn)]
    constructor
    · rintro ⟨names, es, hk, hes, hlen, rfl⟩
      exact ⟨root.below names, es, ⟨⟨n, names, hn, hes, hk, rfl⟩, hlen⟩, rfl⟩
    · rintro ⟨directory, es, ⟨⟨m, names, hm, hes, hk, rfl⟩, hlen⟩, rfl⟩
      rw [hn] at hm
      cases hm
      exact ⟨names, es, hk, hes, hlen, rfl⟩
  · simp [Reaches, LeadsDown, hn]

theorem mem_visit_files {fs : FileSystem} {keep : String → Bool} {directory : Path} {es : List (String × Node)}
    (hw : (Node.dir es).WellFormed) {name : String} :
    name ∈ (fs.visit keep directory es).files ↔
      ∃ n, es.lookup name = some n ∧ fs.leadsToDir directory name n = false := by
  simp only [visit, List.mem_map, List.mem_filter, Prod.exists, exists_and_right, exists_eq_right, Bool.not_eq_eq_eq_not,
    Bool.not_true, hw.mem_iff_lookup]

theorem mem_visit_dirs {fs : FileSystem} {keep : String → Bool} {directory : Path} {es : List (String × Node)}
    (hw : (Node.dir es).WellFormed) {name : String} :
    name ∈ (fs.visit keep directory es).dirs ↔
      (∃ n, es.lookup name = some n ∧ fs.leadsToDir directory name n = true) ∧ keep name = true := by
  simp only [visit, List.mem_map, List.mem_filter, Prod.exists, exists_and_right, exists_eq_right, hw.mem_iff_lookup]

end FileSystem

/-- The files below a directory are those of the visits of a walk, one visit after the other. -/
theorem projectFiles_eq_ok {fs : FileSystem} {rules : Rules} {root : Path} {paths : List Path} :
    projectFiles fs rules root = .ok paths ↔
      ∃ visits, fs.walkFrom rules.enters root = .ok visits ∧ paths = visits.flatMap (·.filePaths) := by
  rw [projectFiles]
  cases fs.walkFrom rules.enters root with
  | error e => simp [Except.map]
  | ok visits => simp [Except.map, eq_comm]

/-- The files below a directory are the entries of what is reached that neither are nor lead to directories. -/
theorem mem_projectFiles_iff {fs : FileSystem} (hw : fs.WellFormed) {rules : Rules} {root : Path} {paths : List Path}
    (h : projectFiles fs rules root = .ok paths) {p : Path} :
    p ∈ paths ↔ fs.ReachesFile rules.enters root p := by
  obtain ⟨visits, hv, rfl⟩ := projectFiles_eq_ok.1 h
  rw [List.mem_flatMap]
  constructor
  · rintro ⟨v, hmem, hp⟩
    obtain ⟨directory, es, hr, rfl⟩ := (FileSystem.mem_walkFrom_iff hw hv).1 hmem
    obtain ⟨name, hname, rfl⟩ := List.mem_map.1 hp
    obtain ⟨n, hn, hl⟩ := (FileSystem.mem_visit_files (hr.wellFormed hw)).1 hname
    exact ⟨directory, es, name, n, hr, hn, hl, rfl⟩
  · rintro ⟨directory, es, name, n, hr, hn, hl, rfl⟩
    refine ⟨fs.visit rules.enters directory es, (FileSystem.mem_walkFrom_iff hw hv).2 ⟨directory, es, hr, rfl⟩, ?_⟩
    exact List.mem_map.2 ⟨name, (FileSystem.mem_visit_files (hr.wellFormed hw)).2 ⟨n, hn, hl⟩, rfl⟩

end WorkspaceLint.Files
