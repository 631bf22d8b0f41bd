import WorkspaceLint.Proofs.Files.Resolution

/-!
# Canonical positions

What a path leads to stands at its canonical position: `canonicalPosition_of_route`. Resolving the target of a link
never meets that link again, since it would then take more links than it takes, and never runs out of its bound, since the links
that are being followed at one time are different ones and the tree holds no more of them. A path that could not be resolved as a
whole still holds no dot names, so it goes along names of entries when it leads anywhere (`exists_place_of_resolve`).
-/

namespace WorkspaceLint.Files

/-! ## The links of a tree -/

mutual

/-- The positions of the links of a tree. -/
def Node.linkPositions : Node → List (List String)
  | .file _ => []
  | .link _ => [[]]
  | .dir es => entriesLinkPositions es

/-- The positions of the links of entries. -/
def Node.entriesLinkPositions : List (String × Node) → List (List String)
  | [] => []
  | (name, n) :: rest => n.linkPositions.map (name :: ·) ++ entriesLinkPositions rest

end

namespace Node

mutual

theorem linkPositions_length : ∀ n : Node, n.linkPositions.length = n.linkCount
  | .file _ => rfl
  | .link _ => rfl
  | .dir es => entriesLinkPositions_length es

theorem entriesLinkPositions_length : ∀ es : List (String × Node),
    (entriesLinkPositions es).length = entriesLinkCount es
  | [] => rfl
  | (name, n) :: rest => by
    simp only [entriesLinkPositions, List.length_append, List.length_map, entriesLinkCount]
    rw [linkPositions_length n, entriesLinkPositions_length rest]

end

theorem mem_entriesLinkPositions {es : List (String × Node)} {q : List String} :
    q ∈ entriesLinkPositions es ↔ ∃ name n r, (name, n) ∈ es ∧ r ∈ n.linkPositions ∧ q = name :: r := by
  induction es with
  | nil => simp [entriesLinkPositions]
  | cons e rest ih =>
    obtain ⟨k, m⟩ := e
    rw [entriesLinkPositions, List.mem_append, List.mem_map, ih]
    constructor
    · rintro (⟨r, hr, rfl⟩ | ⟨name, n, r, hn, hr, rfl⟩)
      · exact ⟨k, m, r, List.mem_cons_self, hr, rfl⟩
      · exact ⟨name, n, r, List.mem_cons_of_mem _ hn, hr, rfl⟩
    · rintro ⟨name, n, r, hn, hr, rfl⟩
      rcases List.mem_cons.1 hn with h | hn
      · cases h
        exact Or.inl ⟨r, hr, rfl⟩
      · exact Or.inr ⟨name, n, r, hn, hr, rfl⟩

/-- A link stands at one of the positions of links. -/
theorem mem_linkPositions {n : Node} {q : List String} {t : String} (h : n.at? q = some (.link t)) :
    q ∈ n.linkPositions := by
  induction q generalizing n with
  | nil =>
    cases h
    simp [linkPositions]
  | cons name rest ih =>
    obtain ⟨es, c, rfl, hc, hrest⟩ := eq_dir_of_at?_cons h
    rw [linkPositions, mem_entriesLinkPositions]
    exact ⟨name, c, rest, mem_of_lookup hc, ih hrest, rfl⟩

end Node

/-! ## Double dots -/

/-- Names followed by more names, of which each double dot takes back the name before it. -/
def collapseOnto (p names : List String) : List String :=
  names.foldl (fun acc name => if name = "." then acc else if name = ".." then acc.dropLast else acc ++ [name]) p

theorem forall_mem_collapseOnto (kept : String → Prop) {names : List String} : ∀ {p : List String}, (∀ x ∈ p, kept x) →
    (∀ x ∈ names, x ≠ "." → x ≠ ".." → kept x) → ∀ x ∈ collapseOnto p names, kept x := by
  induction names with
  | nil => exact fun hp _ => hp
  | cons name rest ih =>
    intro p hp hnames
    rw [List.forall_mem_cons] at hnames
    rw [collapseOnto, List.foldl_cons]
    refine ih ?_ hnames.2
    split
    · exact hp
    · split
      · exact fun x hx => hp x (List.dropLast_subset _ hx)
      · rename_i hdot hup
        exact List.forall_mem_append.2 ⟨hp, List.forall_mem_singleton.2 (hnames.1 hdot hup)⟩

/-- What double dots leave over is a name that was there, and no dot name. -/
theorem mem_collapseNames {names : List String} {x : String} (h : x ∈ collapseNames names) :
    x ∈ names ∧ x ≠ "." ∧ x ≠ ".." :=
  forall_mem_collapseOnto (fun x => x ∈ names ∧ x ≠ "." ∧ x ≠ "..") (p := []) (by simp)
    (fun _ hx hdot hup => ⟨hx, hdot, hup⟩) x h

namespace FileSystem

/-! ## Counting links -/

/-- Different positions of links are no more than the links of the file system. -/
theorem length_le_linkCount {fs : FileSystem} {l : List (List String)} (hl : l.Nodup)
    (h : ∀ p ∈ l, ∃ t, fs.linkAt? p = some t) : l.length ≤ fs.root.linkCount := by
  have hsub : l ⊆ fs.root.linkPositions := by
    intro p hp
    obtain ⟨t, ht⟩ := h p hp
    rw [linkAt?, Option.bind_eq_some_iff] at ht
    obtain ⟨n, hn, hnt⟩ := ht
    cases n with
    | link t' => exact Node.mem_linkPositions hn
    | file _ => simp [Node.target?] at hnt
    | dir _ => simp [Node.target?] at hnt
  rw [← Node.linkPositions_length]
  exact (List.subperm_of_subset hl hsub).length_le

/-! ## Resolving names -/

theorem canonicalFrom_nil (fs : FileSystem) (b : Nat) (pending : List (List String)) (p : List String) :
    fs.canonicalFrom b pending p [] = .ok p := by
  cases b <;> rfl

theorem canonicalFrom_dot (fs : FileSystem) (b : Nat) (pending : List (List String)) (p rest : List String) :
    fs.canonicalFrom b pending p ("." :: rest) = fs.canonicalFrom b pending p rest := by
  cases b <;> rfl

theorem canonicalFrom_up (fs : FileSystem) (b : Nat) (pending : List (List String)) (p rest : List String) :
    fs.canonicalFrom b pending p (".." :: rest) = fs.canonicalFrom b pending p.dropLast rest := by
  cases b <;> rfl

theorem canonicalFrom_step {fs : FileSystem} {p : List String} {name : String} (h1 : name ≠ ".") (h2 : name ≠ "..")
    (hl : fs.linkAt? (p ++ [name]) = none) (b : Nat) (pending : List (List String)) (rest : List String) :
    fs.canonicalFrom b pending p (name :: rest) = fs.canonicalFrom b pending (p ++ [name]) rest := by
  cases b <;> simp [canonicalFrom, canonicalNames, h1, h2, hl]

theorem canonicalFrom_link {fs : FileSystem} {p p' : List String} {name target : String} {b : Nat}
    {pending : List (List String)} (h1 : name ≠ ".") (h2 : name ≠ "..") (hl : fs.linkAt? (p ++ [name]) = some target)
    (hnew : p ++ [name] ∉ pending)
    (ht : fs.canonicalFrom b ((p ++ [name]) :: pending) (linkBase p target) (targetNames target) = .ok p')
    (rest : List String) :
    fs.canonicalFrom (b + 1) pending p (name :: rest) = fs.canonicalFrom (b + 1) pending p' rest := by
  rw [linkBase] at ht
  simp [canonicalFrom, canonicalNames, h1, h2, hl, hnew, ht, Except.mapError]

/-- The links that are being followed: different ones, as many as are missing from the bound, and each with a target that is
resolved over at least `k` links. -/
structure Pending (fs : FileSystem) (b k : Nat) (pending : List (List String)) : Prop where
  /-- No link is followed twice at one time. -/
  nodup : pending.Nodup
  /-- The bound and the links that are being followed exceed the links of the file system. -/
  bound : fs.root.linkCount < b + pending.length
  /-- The target of each takes at least `k` links. -/
  costly : ∀ h ∈ pending, ∃ p name target, h = p ++ [name] ∧ fs.linkAt? h = some target ∧
    ∀ j q, Leads fs (linkBase p target) (targetNames target) j q → k ≤ j

theorem Pending.mono {fs : FileSystem} {b k k' : Nat} {pending : List (List String)} (h : Pending fs b k pending)
    (hk : k' ≤ k) : Pending fs b k' pending := by
  refine ⟨h.nodup, h.bound, fun x hx => ?_⟩
  obtain ⟨p, name, target, he, hl, hc⟩ := h.costly x hx
  exact ⟨p, name, target, he, hl, fun j q hj => Nat.le_trans hk (hc j q hj)⟩

/-- While a link is followed whose target is not resolved yet, the bound is not used up. -/
theorem Pending.bound_pos {fs : FileSystem} {b k : Nat} {pending : List (List String)} (h : Pending fs b k pending) :
    0 < b := by
  have hle := length_le_linkCount h.nodup fun x hx => by
    obtain ⟨_, _, target, -, hl, -⟩ := h.costly x hx
    exact ⟨target, hl⟩
  have := h.bound
  omega

/-- A link whose target takes fewer links than are allowed for is none of those being followed, and may be followed too. -/
theorem Pending.follow {fs : FileSystem} {b j k : Nat} {pending : List (List String)} {p p' : List String}
    {name target : String} (h : Pending fs (b + 1) k pending) (hk : j < k) (hl : fs.linkAt? (p ++ [name]) = some target)
    (ht : Leads fs (linkBase p target) (targetNames target) j p') :
    p ++ [name] ∉ pending ∧ Pending fs b j ((p ++ [name]) :: pending) := by
  have hnew : p ++ [name] ∉ pending := by
    intro hmem
    obtain ⟨p₁, name₁, target₁, he, hl₁, hc⟩ := h.costly _ hmem
    obtain ⟨rfl, hname⟩ := List.append_inj' he rfl
    cases hname
    rw [hl] at hl₁
    cases hl₁
    have := hc j p' ht
    omega
  refine ⟨hnew, List.nodup_cons.2 ⟨hnew, h.nodup⟩, ?_, fun x hx => ?_⟩
  · have := h.bound
    simp only [List.length_cons]
    omega
  · rcases List.mem_cons.1 hx with rfl | hx
    · exact ⟨p, name, target, rfl, hl, fun i q hi => Nat.le_of_eq (ht.unique hi).1⟩
    · exact (h.mono (Nat.le_of_lt hk)).costly x hx

/-- Names that lead somewhere are resolved to where they lead. -/
theorem canonicalFrom_of_leads {fs : FileSystem} {p names q : List String} {k : Nat} (h : Leads fs p names k q) :
    ∀ (b : Nat) (pending : List (List String)), Pending fs b k pending →
      fs.canonicalFrom b pending p names = .ok q := by
  induction h with
  | done p => exact fun b pending _ => canonicalFrom_nil fs b pending p
  | dot he _ ih =>
    intro b pending hp
    rw [he, canonicalFrom_dot]
    exact ih b pending hp
  | up he _ ih =>
    intro b pending hp
    rw [he, canonicalFrom_up]
    exact ih b pending hp
  | step h1 h2 hl _ ih =>
    intro b pending hp
    rw [canonicalFrom_step h1 h2 hl]
    exact ih b pending hp
  | @link p rest p' q j k name target h1 h2 hl ht _ iht ihr =>
    intro b pending hp
    obtain ⟨b, rfl⟩ := Nat.exists_eq_succ_of_ne_zero (Nat.pos_iff_ne_zero.1 hp.bound_pos)
    obtain ⟨hnew, hp'⟩ := hp.follow (by omega) hl ht
    rw [canonicalFrom_link h1 h2 hl hnew (iht b _ hp')]
    exact ihr (b + 1) pending (hp.mono (by omega))

/-- What a path leads to stands at its canonical position. -/
theorem canonicalPosition_of_route {fs : FileSystem} {path : Path} {r : Found} (h : fs.route path = .ok r) :
    fs.canonicalPosition path = r.position := by
  obtain ⟨k, -, hk⟩ := leads_of_walk_ok h
  rw [canonicalPosition, canonicalFrom_of_leads hk _ [] ⟨List.nodup_nil, by simp, by simp⟩]

/-- A path that leads somewhere has a canonical path, which leads to the same place. -/
theorem resolve_of_route {fs : FileSystem} {path : Path} {r : Found} (h : fs.route path = .ok r)
    (hnul : '\x00' ∉ path.text.toList) : fs.resolve path = .ok (.absolute r.position) := by
  obtain ⟨hn, hl, hs⟩ := route_spec h
  have hr : fs.route (.absolute r.position) = .ok ⟨r.position, r.node⟩ := route_of_at? hn hs hl
  have hc : path.text.toList.contains '\x00' = false := by simpa using hnul
  have hne : fs.stat? (.absolute r.position) ≠ .error .tooManyLinks := by
    rw [stat?, find?_eq_route, hr]
    split <;> simp [Except.map]
  rw [resolve, hc, canonicalPosition_of_route h, if_neg (by simp)]
  dsimp only
  split
  · contradiction
  · rfl

/-- A path along names of entries leads to what stands there, when that is no link. -/
theorem WellFormed.route_absolute {fs : FileSystem} (hw : fs.WellFormed) {position : List String} {n : Node}
    (h : fs.at? position = some n) (hl : n.target? = none) : fs.route (.absolute position) = .ok ⟨position, n⟩ :=
  route_of_at? h (hw.isStep h) hl

/-- It is the canonical path of what stands there. -/
theorem WellFormed.resolve_absolute {fs : FileSystem} (hw : fs.WellFormed) {position : List String} {n : Node}
    (h : fs.at? position = some n) (hl : n.target? = none) : fs.resolve (.absolute position) = .ok (.absolute position) :=
  resolve_of_route (hw.route_absolute h hl) (nul_not_mem_absolute (Node.WellFormed.below hw h).2)

/-- The canonical path is the one at the canonical position. -/
theorem resolve_eq_ok {fs : FileSystem} {path p : Path} (h : fs.resolve path = .ok p) :
    p = .absolute (fs.canonicalPosition path) := by
  rw [resolve] at h
  split at h
  · nomatch h
  · dsimp only at h
    split at h
    · nomatch h
    · cases h
      rfl

/-! ## Names of canonical paths -/

/-- No dot name is among some names. -/
def Dotless (names : List String) : Prop := ∀ x ∈ names, x ≠ "." ∧ x ≠ ".."

theorem Dotless.concat {names : List String} (h : Dotless names) {name : String} (h1 : name ≠ ".") (h2 : name ≠ "..") :
    Dotless (names ++ [name]) :=
  List.forall_mem_append.2 ⟨h, List.forall_mem_singleton.2 ⟨h1, h2⟩⟩

theorem Dotless.dropLast {names : List String} (h : Dotless names) : Dotless names.dropLast :=
  fun x hx => h x (List.dropLast_subset names hx)

theorem collapseNames_dotless (names : List String) : Dotless (collapseNames names) :=
  fun _ hx => (mem_collapseNames hx).2

/-- Resolving names leaves no dot name, when none is in the positions that links lead to. -/
theorem canonicalNames_dotless {fs : FileSystem} {onLink : List String → String → String → Except (List String) (List String)}
    (hlink : ∀ p name target q, Dotless p → onLink p name target = .ok q → Dotless q) {p names q : List String}
    (hp : Dotless p) (h : fs.canonicalNames onLink p names = .ok q) : Dotless q := by
  induction names generalizing p with
  | nil =>
    cases h
    exact hp
  | cons name rest ih =>
    rw [canonicalNames] at h
    split at h
    · exact ih hp h
    · split at h
      · exact ih hp.dropLast h
      · split at h
        · exact ih (hp.concat ‹_› ‹_›) h
        · split at h
          · exact ih (hlink _ _ _ _ hp ‹_›) h
          · nomatch h

theorem canonicalFrom_dotless {fs : FileSystem} (b : Nat) : ∀ {pending : List (List String)} {p names q : List String},
    Dotless p → fs.canonicalFrom b pending p names = .ok q → Dotless q := by
  induction b with
  | zero => exact fun hp h => canonicalNames_dotless (by exact nofun) hp h
  | succ b ih =>
    intro pending p names q hp h
    refine canonicalNames_dotless (fun p name target q hp h => ?_) hp h
    dsimp only at h
    split at h
    · nomatch h
    · generalize hfollowed : fs.canonicalFrom b _ _ _ = followed at h
      cases followed with
      | ok position =>
        cases h
        refine ih ?_ hfollowed
        split
        · simp [Dotless]
        · exact hp
      | error left => nomatch h

/-- A canonical position holds no dot name, whatever could not be resolved. -/
theorem canonicalPosition_dotless (fs : FileSystem) (path : Path) : Dotless (fs.canonicalPosition path) := by
  rw [canonicalPosition]
  split
  · rename_i q hq
    exact canonicalFrom_dotless _ (by simp [Dotless]) hq
  · exact collapseNames_dotless _

/-- No null character stands in some names. -/
def NulFree (names : List String) : Prop := ∀ x ∈ names, '\x00' ∉ x.toList

theorem NulFree.append {names more : List String} (h : NulFree names) (h' : NulFree more) : NulFree (names ++ more) :=
  List.forall_mem_append.2 ⟨h, h'⟩

theorem NulFree.dropLast {names : List String} (h : NulFree names) : NulFree names.dropLast :=
  fun x hx => h x (List.dropLast_subset names hx)

theorem collapseNames_nulFree {names : List String} (h : NulFree names) : NulFree (collapseNames names) :=
  fun x hx => h x (mem_collapseNames hx).1

/-- The names of a link target hold no null character when the target holds none. -/
theorem targetNames_nulFree {target : String} (h : '\x00' ∉ target.toList) : NulFree (targetNames target) := by
  have hnames : ∀ l ∈ (target.toList.splitOn '/').filter (· ≠ []), '\x00' ∉ l := fun l hl hnul =>
    h (Path.subset_of_mem_splitOn '/' target.toList l (List.mem_filter.1 hl).1 hnul)
  intro x hx
  rw [targetNames, List.mem_map] at hx
  obtain ⟨l, hl, rfl⟩ := hx
  rw [String.toList_ofList]
  split at hl
  · rcases List.mem_append.1 hl with hl | hl
    · exact hnames l hl
    · rw [List.mem_singleton.1 hl]
      decide
  · exact hnames l hl

/-- The names that following a link ends with: those of the position, or those that were not resolved. -/
def EndsWith (r : Except (List String) (List String)) (names : List String) : Prop := r = .ok names ∨ r = .error names

/-- No null character stands in the names that resolving ends with: those of the position, or those that were not resolved and the
names after them. -/
def EndsNulFree : Except (List String × List String) (List String) → Prop
  | .ok names => NulFree names
  | .error (names, rest) => NulFree names ∧ NulFree rest

theorem unresolvedNames_nulFree {target : String} {names rest : List String} (h : NulFree names) (h' : NulFree rest) :
    NulFree (unresolvedNames target names rest) := by
  rw [unresolvedNames]
  split
  · exact h'
  · exact h.append h'

/-- Resolving names brings no null character in, when the links do not. -/
theorem canonicalNames_nulFree {fs : FileSystem} {onLink : List String → String → String → Except (List String) (List String)}
    (hlink : ∀ p name target q, NulFree (p ++ [name]) → fs.linkAt? (p ++ [name]) = some target →
      EndsWith (onLink p name target) q → NulFree q)
    {p names : List String} (hp : NulFree p) (hnames : NulFree names) : EndsNulFree (fs.canonicalNames onLink p names) := by
  induction names generalizing p with
  | nil => exact hp
  | cons name rest ih =>
    rw [NulFree, List.forall_mem_cons] at hnames
    have hhere : NulFree (p ++ [name]) := hp.append (List.forall_mem_singleton.2 hnames.1)
    rw [canonicalNames]
    split
    · exact ih hp hnames.2
    · split
      · exact ih hp.dropLast hnames.2
      · split
        · exact ih hhere hnames.2
        · rename_i target htarget
          split
          · exact ih (hlink _ _ _ _ hhere htarget (Or.inl ‹_›)) hnames.2
          · exact ⟨hlink _ _ _ _ hhere htarget (Or.inr ‹_›), hnames.2⟩

theorem canonicalFrom_nulFree {fs : FileSystem} (hw : fs.WellFormed) (b : Nat) : ∀ (pending : List (List String))
    {p names : List String}, NulFree p → NulFree names → EndsNulFree (fs.canonicalFrom b pending p names) := by
  induction b with
  | zero =>
    refine fun _ _ _ hp hnames => canonicalNames_nulFree (fun p name target q hhere _ he => ?_) hp hnames
    rcases he with he | he
    · nomatch he
    · cases he
      exact hhere
  | succ b ih =>
    intro pending p names hp hnames
    refine canonicalNames_nulFree (fun p name target q hhere htarget he => ?_) hp hnames
    have hbase : NulFree (if targetIsAbsolute target then [] else p) := by
      split
      · simp [NulFree]
      · exact fun x hx => hhere x (List.mem_append_left _ hx)
    have htargetNames : NulFree (targetNames target) := by
      refine targetNames_nulFree ?_
      obtain ⟨n, hn, ht⟩ := Option.bind_eq_some_iff.1 htarget
      cases n with
      | link t =>
        cases ht
        exact (Node.WellFormed.below hw hn).1.2
      | file _ => nomatch ht
      | dir _ => nomatch ht
    have hfollowed := ih ((p ++ [name]) :: pending) hbase htargetNames
    dsimp only at he
    split at he
    · rcases he with he | he
      · nomatch he
      · cases he
        exact hhere
    · generalize fs.canonicalFrom b _ _ _ = followed at he hfollowed
      cases followed with
      | ok position =>
        rcases he with he | he
        · cases he
          exact hfollowed
        · nomatch he
      | error left =>
        obtain ⟨names, rest⟩ := left
        rcases he with he | he
        · nomatch he
        · cases he
          exact unresolvedNames_nulFree hfollowed.1 hfollowed.2

/-- No null character stands in a resolved path. -/
theorem nul_not_mem_resolve {fs : FileSystem} (hw : fs.WellFormed) {path p : Path} (h : fs.resolve path = .ok p) :
    '\x00' ∉ p.text.toList := by
  have hparts : NulFree path.parts := by
    refine Path.nul_not_mem_text.1 fun hmem => ?_
    rw [resolve, if_pos (by simpa using hmem)] at h
    nomatch h
  rw [resolve_eq_ok h]
  refine Path.nul_not_mem_text.2 (?_ : NulFree (fs.canonicalPosition path))
  have hfrom := canonicalFrom_nulFree hw (fs.root.linkCount + 1) [] (by simp [NulFree] : NulFree []) hparts
  rw [canonicalPosition]
  generalize fs.canonicalFrom _ _ _ _ = r at hfrom
  cases r with
  | ok position => exact hfrom
  | error left => exact collapseNames_nulFree (hfrom.1.append hfrom.2)

/-- Every name that a look-up walks is a dot name or the name of an entry. -/
theorem isEntryName_of_walk {fs : FileSystem} (hw : fs.WellFormed) (k : Nat) : ∀ {p names : List String} {r : Found},
    fs.walk true k p names = .ok r → ∀ x ∈ names, x = "." ∨ x = ".." ∨ IsEntryName x := by
  induction k using Nat.strongRecOn with
  | _ k ihk =>
    intro p names
    induction names generalizing p with
    | nil => exact fun _ x hx => absurd hx List.not_mem_nil
    | cons name names ih =>
      intro r h
      rw [List.forall_mem_cons]
      obtain ⟨es, hp, ⟨rfl, hr⟩ | ⟨rfl, hr⟩ | ⟨-, ⟨n, hl, -⟩, hr⟩ | ⟨j, target, rfl, -, hl, hr⟩⟩ := walk_cons_ok h
      · exact ⟨Or.inl rfl, ih hr⟩
      · exact ⟨Or.inr (Or.inl rfl), ih hr⟩
      · exact ⟨Or.inr (Or.inr ((Node.WellFormed.below hw hp).1.entry (Node.mem_of_lookup hl)).1), ih hr⟩
      · exact ⟨Or.inr (Or.inr ((Node.WellFormed.below hw hp).1.entry (Node.mem_of_lookup hl)).1),
          fun x hx => ihk j (Nat.lt_succ_self j) hr x (List.mem_append_right _ hx)⟩

/-- A resolved path that leads somewhere goes along names of entries, also when links are left on the way. -/
theorem exists_place_of_resolve {fs : FileSystem} (hw : fs.WellFormed) {path p : Path} (h : fs.resolve path = .ok p) {r : Found}
    (hr : fs.route p = .ok r) : ∃ place, p = .absolute place ∧ ∀ x ∈ place, IsEntryName x := by
  refine ⟨fs.canonicalPosition path, resolve_eq_ok h, fun x hx => ?_⟩
  rw [resolve_eq_ok h] at hr
  obtain ⟨h1, h2⟩ := canonicalPosition_dotless fs path x hx
  exact ((isEntryName_of_walk hw maxLinks hr x hx).resolve_left h1).resolve_left h2

end FileSystem

end WorkspaceLint.Files
