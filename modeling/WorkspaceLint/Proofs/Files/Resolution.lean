import WorkspaceLint.Files.Canonical
import WorkspaceLint.Proofs.Files.Positions
import Mathlib.Data.List.Perm.Subperm

/-!
# Where paths lead

Statements about `find?` and `canonicalPosition`. The two walk differently: a look-up puts the target of a link in front of the
names that are left and counts the links it follows, while a canonical path resolves the target by itself and keeps the links
that are being followed. `Leads` is what they have in common: names lead from one position to another, over a number of links.
-/

namespace WorkspaceLint.Files

/-- Where the target of a link in the directory at a position is walked from. -/
def linkBase (position : List String) (target : String) : List String := if targetIsAbsolute target then [] else position

namespace FileSystem

/-! ## One step of a look-up -/

/-- What a look-up does with the first of its names when it succeeds by some way to go on at a link: it stays at a dot, goes back
at a double dot, goes on below an entry that is no link, or goes on at the link. -/
theorem walkNames_cons_ok {fs : FileSystem} {onLink : List String → String → List String → Except Fault Found}
    {p rest : List String} {name : String} {r : Found} (h : fs.walkNames true onLink p (name :: rest) = .ok r) :
    ∃ es, fs.at? p = some (.dir es) ∧
      ((name = "." ∧ fs.walkNames true onLink p rest = .ok r) ∨
        (name = ".." ∧ fs.walkNames true onLink p.dropLast rest = .ok r) ∨
        (IsStep name ∧ (∃ n, es.lookup name = some n ∧ n.target? = none) ∧
          fs.walkNames true onLink (p ++ [name]) rest = .ok r) ∨
        ∃ target, IsStep name ∧ es.lookup name = some (.link target) ∧ onLink p target rest = .ok r) := by
  rw [walkNames] at h
  split at h
  · rename_i es hp
    refine ⟨es, hp, ?_⟩
    by_cases hdot : name = "."
    · rw [if_pos hdot] at h
      exact Or.inl ⟨hdot, h⟩
    rw [if_neg hdot] at h
    by_cases hup : name = ".."
    · rw [if_pos hup] at h
      exact Or.inr (Or.inl ⟨hup, h⟩)
    rw [if_neg hup] at h
    by_cases hlong : maxNameBytes < name.utf8ByteSize
    · rw [if_pos hlong] at h
      nomatch h
    rw [if_neg hlong] at h
    have hstep : IsStep name := ⟨hdot, hup, Nat.le_of_not_lt hlong⟩
    split at h
    · nomatch h
    · rename_i target hl
      simp only [Bool.true_eq_false, and_false, if_false] at h
      exact Or.inr (Or.inr (Or.inr ⟨target, hstep, hl, h⟩))
    · rename_i n hno hl
      refine Or.inr (Or.inr (Or.inl ⟨hstep, ⟨n, hl, ?_⟩, h⟩))
      cases n with
      | link t => exact (hno t rfl).elim
      | file _ => rfl
      | dir _ => rfl
  · nomatch h

/-- What a look-up that succeeds does with the first of its names: it stays at a dot, goes back at a double dot, goes on below an
entry that is no link, or puts the target of a link in front of the names that are left. -/
theorem walk_cons_ok {fs : FileSystem} {k : Nat} {p rest : List String} {name : String} {r : Found}
    (h : fs.walk true k p (name :: rest) = .ok r) :
    ∃ es, fs.at? p = some (.dir es) ∧
      ((name = "." ∧ fs.walk true k p rest = .ok r) ∨
        (name = ".." ∧ fs.walk true k p.dropLast rest = .ok r) ∨
        (IsStep name ∧ (∃ n, es.lookup name = some n ∧ n.target? = none) ∧ fs.walk true k (p ++ [name]) rest = .ok r) ∨
        ∃ k' target, k = k' + 1 ∧ IsStep name ∧ es.lookup name = some (.link target) ∧
          fs.walk true k' (linkBase p target) (targetNames target ++ rest) = .ok r) := by
  cases k with
  | zero =>
    obtain ⟨es, hp, hc⟩ := walkNames_cons_ok h
    refine ⟨es, hp, ?_⟩
    rcases hc with hc | hc | hc | ⟨target, -, -, ho⟩
    · exact Or.inl hc
    · exact Or.inr (Or.inl hc)
    · exact Or.inr (Or.inr (Or.inl hc))
    · nomatch ho
  | succ k =>
    obtain ⟨es, hp, hc⟩ := walkNames_cons_ok h
    refine ⟨es, hp, ?_⟩
    rcases hc with hc | hc | hc | ⟨target, hs, hl, ho⟩
    · exact Or.inl hc
    · exact Or.inr (Or.inl hc)
    · exact Or.inr (Or.inr (Or.inl hc))
    · exact Or.inr (Or.inr (Or.inr ⟨k, target, rfl, hs, hl, ho⟩))

theorem walk_nil (fs : FileSystem) {followLast : Bool} (k : Nat) (p : List String) :
    fs.walk followLast k p [] = match fs.at? p with | some n => .ok ⟨p, n⟩ | none => .error .notFound := by
  cases k <;> rfl

theorem walk_dot {fs : FileSystem} {followLast : Bool} {k : Nat} {p : List String} {es : List (String × Node)}
    (hp : fs.at? p = some (.dir es)) (rest : List String) :
    fs.walk followLast k p ("." :: rest) = fs.walk followLast k p rest := by
  cases k <;> simp [walk, walkNames, hp]

theorem walk_up {fs : FileSystem} {followLast : Bool} {k : Nat} {p : List String} {es : List (String × Node)}
    (hp : fs.at? p = some (.dir es)) (rest : List String) :
    fs.walk followLast k p (".." :: rest) = fs.walk followLast k p.dropLast rest := by
  cases k <;> simp [walk, walkNames, hp]

/-- A name that may be walked and is not there. -/
theorem walk_missing {fs : FileSystem} {k : Nat} {p : List String} {es : List (String × Node)} {name : String}
    (hp : fs.at? p = some (.dir es)) (hs : IsStep name) (hl : es.lookup name = none) (rest : List String) :
    fs.walk true k p (name :: rest) = .error .notFound := by
  have hlen : ¬maxNameBytes < name.utf8ByteSize := Nat.not_lt.2 hs.2.2
  cases k <;> simp [walk, walkNames, hp, hs.1, hs.2.1, hlen, hl]

theorem walk_step {fs : FileSystem} {followLast : Bool} {k : Nat} {p : List String} {es : List (String × Node)} {name : String}
    {n : Node} (hp : fs.at? p = some (.dir es)) (hs : IsStep name) (hl : es.lookup name = some n) (hn : n.target? = none)
    (rest : List String) : fs.walk followLast k p (name :: rest) = fs.walk followLast k (p ++ [name]) rest := by
  have hlen : ¬maxNameBytes < name.utf8ByteSize := Nat.not_lt.2 hs.2.2
  cases n with
  | link t => simp [Node.target?] at hn
  | file _ => cases k <;> simp [walk, walkNames, hp, hs.1, hs.2.1, hlen, hl]
  | dir _ => cases k <;> simp [walk, walkNames, hp, hs.1, hs.2.1, hlen, hl]

/-- A link is followed unless it is the last of the names and the last one is not followed. -/
theorem walk_link {fs : FileSystem} {followLast : Bool} {k : Nat} {p : List String} {es : List (String × Node)}
    {name target : String} (hp : fs.at? p = some (.dir es)) (hs : IsStep name) (hl : es.lookup name = some (.link target))
    {rest : List String} (hfollow : followLast = true ∨ rest ≠ []) :
    fs.walk followLast (k + 1) p (name :: rest) =
      fs.walk followLast k (linkBase p target) (targetNames target ++ rest) := by
  have hlen : ¬maxNameBytes < name.utf8ByteSize := Nat.not_lt.2 hs.2.2
  have hgo : ¬(rest = [] ∧ followLast = false) := by
    rintro ⟨hnil, hno⟩
    rcases hfollow with hyes | hne
    · rw [hyes] at hno
      nomatch hno
    · exact hne hnil
  rw [walk, walkNames, hp]
  simp only [hs.1, hs.2.1, hlen, hl, if_false, hgo]
  rfl

/-! ## Whole look-ups -/

/-- Names that lead along directories are walked without a link. -/
theorem walk_real {fs : FileSystem} {k : Nat} {p names : List String} {m n : Node} (hp : fs.at? p = some m)
    (hs : ∀ x ∈ names, IsStep x) (hm : m.at? names = some n) (hn : n.target? = none) :
    fs.walk true k p names = .ok ⟨p ++ names, n⟩ := by
  induction names generalizing p m with
  | nil =>
    cases hm
    rw [walk_nil, hp, List.append_nil]
  | cons name rest ih =>
    obtain ⟨es, c, rfl, hc, hrest⟩ := Node.eq_dir_of_at?_cons hm
    have hct : c.target? = none := by
      cases rest with
      | nil =>
        cases hrest
        exact hn
      | cons _ _ =>
        obtain ⟨_, _, rfl, -, -⟩ := Node.eq_dir_of_at?_cons hrest
        rfl
    rw [walk_step hp (hs name (by simp)) hc hct,
      ih ((at?_concat hp name).trans hc) (fun x hx => hs x (List.mem_cons_of_mem _ hx)) hrest, List.append_assoc]
    rfl

/-- Names that follow others are walked from where those lead, with the links that are left. Whether a link at the end is followed
makes a difference for the last of them only. -/
theorem walk_append {fs : FileSystem} (followLast : Bool) (k : Nat) : ∀ {p names : List String} {r : Found},
    fs.walk true k p names = .ok r →
      ∃ k' ≤ k, ∀ rest, followLast = true ∨ rest ≠ [] →
        fs.walk followLast k p (names ++ rest) = fs.walk followLast k' r.position rest := by
  induction k using Nat.strongRecOn with
  | _ k ihk =>
    intro p names
    induction names generalizing p with
    | nil =>
      intro r h
      rw [walk_nil] at h
      split at h
      · cases h
        exact ⟨k, Nat.le_refl k, fun _ _ => rfl⟩
      · nomatch h
    | cons name names ih =>
      intro r h
      obtain ⟨es, hp, ⟨rfl, hw⟩ | ⟨rfl, hw⟩ | ⟨hs, ⟨n, hl, hn⟩, hw⟩ | ⟨j, target, rfl, hs, hl, hw⟩⟩ := walk_cons_ok h
      · obtain ⟨k', hk, he⟩ := ih hw
        exact ⟨k', hk, fun rest hrest => (walk_dot hp _).trans (he rest hrest)⟩
      · obtain ⟨k', hk, he⟩ := ih hw
        exact ⟨k', hk, fun rest hrest => (walk_up hp _).trans (he rest hrest)⟩
      · obtain ⟨k', hk, he⟩ := ih hw
        exact ⟨k', hk, fun rest hrest => (walk_step hp hs hl hn _).trans (he rest hrest)⟩
      · obtain ⟨k', hk, he⟩ := ihk j (Nat.lt_succ_self j) hw
        refine ⟨k', by omega, fun rest hrest => ?_⟩
        have hfollow : followLast = true ∨ names ++ rest ≠ [] := hrest.imp_right (List.append_ne_nil_of_right_ne_nil names)
        rw [List.cons_append, walk_link hp hs hl hfollow, ← he rest hrest, List.append_assoc]

/-- Where names lead somewhere, so do the first of them. -/
theorem exists_walk_of_append {fs : FileSystem} (k : Nat) : ∀ {p names rest : List String} {r : Found},
    fs.walk true k p (names ++ rest) = .ok r → ∃ r', fs.walk true k p names = .ok r' := by
  induction k using Nat.strongRecOn with
  | _ k ihk =>
    intro p names
    induction names generalizing p with
    | nil =>
      intro rest r h
      rw [List.nil_append] at h
      cases rest with
      | nil => exact ⟨r, h⟩
      | cons name rest =>
        obtain ⟨es, hp, -⟩ := walk_cons_ok h
        exact ⟨_, by rw [walk_nil, hp]⟩
    | cons name names ih =>
      intro rest r h
      rw [List.cons_append] at h
      obtain ⟨es, hp, ⟨rfl, hw⟩ | ⟨rfl, hw⟩ | ⟨hs, ⟨n, hl, hn⟩, hw⟩ | ⟨j, target, rfl, hs, hl, hw⟩⟩ := walk_cons_ok h
      · rw [walk_dot hp]
        exact ih hw
      · rw [walk_up hp]
        exact ih hw
      · rw [walk_step hp hs hl hn]
        exact ih hw
      · rw [walk_link hp hs hl (Or.inl rfl)]
        rw [← List.append_assoc] at hw
        exact ihk j (Nat.lt_succ_self j) hw

/-- A position that a look-up can be at: it holds no link, and the names that lead there may be walked. -/
def Settled (fs : FileSystem) (p : List String) : Prop := fs.linkAt? p = none ∧ ∀ x ∈ p, IsStep x

theorem linkAt?_of_dir {fs : FileSystem} {p : List String} {es : List (String × Node)} (h : fs.at? p = some (.dir es)) :
    fs.linkAt? p = none := by
  rw [linkAt?, h]
  rfl

theorem settled_nil (fs : FileSystem) : fs.Settled [] := ⟨rfl, by simp⟩

/-- Going back from a directory keeps a position settled. -/
theorem Settled.dropLast {fs : FileSystem} {p : List String} {m : Node} (h : fs.Settled p) (hp : fs.at? p = some m) :
    fs.Settled p.dropLast := by
  by_cases hnil : p = []
  · subst hnil
    exact settled_nil fs
  · obtain ⟨es, he⟩ := Node.at?_dropLast hnil hp
    exact ⟨linkAt?_of_dir he, fun x hx => h.2 x (List.dropLast_subset p hx)⟩

theorem Settled.concat {fs : FileSystem} {p : List String} {es : List (String × Node)} {name : String} {n : Node}
    (h : fs.Settled p) (hp : fs.at? p = some (.dir es)) (hs : IsStep name) (hl : es.lookup name = some n)
    (hn : n.target? = none) : fs.Settled (p ++ [name]) := by
  refine ⟨by rw [linkAt?, at?_concat hp, hl]; exact hn, fun x hx => ?_⟩
  rcases List.mem_append.1 hx with hx | hx
  · exact h.2 x hx
  · rw [List.mem_singleton.1 hx]
    exact hs

theorem Settled.linkBase {fs : FileSystem} {p : List String} (h : fs.Settled p) (target : String) :
    fs.Settled (linkBase p target) := by
  unfold Files.linkBase
  split
  · exact settled_nil fs
  · exact h

/-- A look-up from a settled position ends at a settled position, with the node that stands there. -/
theorem walk_settled {fs : FileSystem} (k : Nat) : ∀ {p names : List String} {r : Found}, fs.Settled p →
    fs.walk true k p names = .ok r → fs.Settled r.position ∧ fs.at? r.position = some r.node := by
  induction k using Nat.strongRecOn with
  | _ k ihk =>
    intro p names
    induction names generalizing p with
    | nil =>
      intro r hp h
      rw [walk_nil] at h
      split at h
      · rename_i n hn
        cases h
        exact ⟨hp, hn⟩
      · nomatch h
    | cons name names ih =>
      intro r hset h
      obtain ⟨es, hp, ⟨rfl, hw⟩ | ⟨rfl, hw⟩ | ⟨hs, ⟨n, hl, hn⟩, hw⟩ | ⟨j, target, rfl, hs, hl, hw⟩⟩ := walk_cons_ok h
      · exact ih hset hw
      · exact ih (hset.dropLast hp) hw
      · exact ih (hset.concat hp hs hl hn) hw
      · exact ihk j (Nat.lt_succ_self j) (hset.linkBase target) hw

/-- Where a path leads, however long it is written. -/
def route (fs : FileSystem) (path : Path) : Except Fault Found := fs.walk true maxLinks [] path.parts

/-- A look-up follows the names of a path that is not too long. -/
theorem find?_eq_route (fs : FileSystem) (path : Path) :
    fs.find? path true = if pathBytesLimit ≤ path.text.utf8ByteSize then .error .nameTooLong else fs.route path := rfl

theorem find?_eq_ok {fs : FileSystem} {path : Path} {r : Found} :
    fs.find? path true = .ok r ↔ path.text.utf8ByteSize < pathBytesLimit ∧ fs.route path = .ok r := by
  rw [find?_eq_route]
  split
  · rename_i h
    exact ⟨fun h' => (nomatch h'), fun h' => absurd h'.1 (Nat.not_lt.2 h)⟩
  · rename_i h
    exact ⟨fun h' => ⟨Nat.lt_of_not_le h, h'⟩, fun h' => h'.2⟩

/-- What a path leads to stands where it leads, and is no link; the names that lead there may be walked. -/
theorem route_spec {fs : FileSystem} {path : Path} {r : Found} (h : fs.route path = .ok r) :
    fs.at? r.position = some r.node ∧ r.node.target? = none ∧ ∀ x ∈ r.position, IsStep x := by
  obtain ⟨⟨hl, hs⟩, hn⟩ := walk_settled maxLinks (settled_nil fs) h
  rw [linkAt?, hn, Option.bind_some] at hl
  exact ⟨hn, hl, hs⟩

/-- From where a path leads, names go on to what lies below. -/
theorem route_below {fs : FileSystem} {path : Path} {r : Found} {names : List String} {n : Node}
    (h : fs.route path = .ok r) (hs : ∀ x ∈ names, IsStep x) (hn : r.node.at? names = some n) (hl : n.target? = none) :
    fs.route (path.below names) = .ok ⟨r.position ++ names, n⟩ := by
  obtain ⟨k, -, he⟩ := walk_append true maxLinks h
  rw [route, Path.below_parts, he _ (Or.inl rfl)]
  exact walk_real (route_spec h).1 hs hn hl

/-- A name that is not in the directory that a path leads to leads nowhere. -/
theorem route_child_missing {fs : FileSystem} {path : Path} {r : Found} {es : List (String × Node)} {name : String}
    (h : fs.route path = .ok r) (hr : r.node = .dir es) (hs : IsStep name) (hl : es.lookup name = none) :
    fs.route (path.child name) = .error .notFound := by
  obtain ⟨k, -, he⟩ := walk_append true maxLinks h
  rw [route, Path.child_eq_below, Path.below_parts, he _ (Or.inl rfl)]
  exact walk_missing ((route_spec h).1.trans (congrArg some hr)) hs hl []

/-- Names lead to what stands at their position, when it is no link and they may be walked. -/
theorem route_of_at? {fs : FileSystem} {path : Path} {n : Node} (h : fs.at? path.parts = some n)
    (hs : ∀ x ∈ path.parts, IsStep x) (hl : n.target? = none) : fs.route path = .ok ⟨path.parts, n⟩ :=
  walk_real (at?_nil fs) hs h hl

/-! ## Resolution -/

/-- Names lead from a position to another one, over a number of links: those met on the way, and those met while their targets
are resolved. -/
inductive Leads (fs : FileSystem) : List String → List String → Nat → List String → Prop where
  | done (p : List String) : Leads fs p [] 0 p
  | dot {p rest q : List String} {k : Nat} {name : String} : name = "." → Leads fs p rest k q → Leads fs p (name :: rest) k q
  | up {p rest q : List String} {k : Nat} {name : String} : name = ".." → Leads fs p.dropLast rest k q →
      Leads fs p (name :: rest) k q
  | step {p rest q : List String} {k : Nat} {name : String} : name ≠ "." → name ≠ ".." → fs.linkAt? (p ++ [name]) = none →
      Leads fs (p ++ [name]) rest k q → Leads fs p (name :: rest) k q
  | link {p rest p' q : List String} {j k : Nat} {name target : String} : name ≠ "." → name ≠ ".." →
      fs.linkAt? (p ++ [name]) = some target → Leads fs (linkBase p target) (targetNames target) j p' →
      Leads fs p' rest k q → Leads fs p (name :: rest) (j + k + 1) q

/-- Names lead to one position only, over one number of links only. -/
theorem Leads.unique {fs : FileSystem} {p names q : List String} {k : Nat} (h : Leads fs p names k q) :
    ∀ {k' : Nat} {q' : List String}, Leads fs p names k' q' → k = k' ∧ q = q' := by
  induction h with
  | done p =>
    intro k' q' h'
    cases h'
    exact ⟨rfl, rfl⟩
  | dot h1 _ ih =>
    intro k' q' h'
    cases h' with
    | dot _ h' => exact ih h'
    | up h2 _ => rw [h1] at h2; nomatch h2
    | step h2 _ _ _ => exact absurd h1 h2
    | link h2 _ _ _ _ => exact absurd h1 h2
  | up h1 _ ih =>
    intro k' q' h'
    cases h' with
    | dot h2 _ => rw [h1] at h2; nomatch h2
    | up _ h' => exact ih h'
    | step _ h2 _ _ => exact absurd h1 h2
    | link _ h2 _ _ _ => exact absurd h1 h2
  | step h1 h2 hl _ ih =>
    intro k' q' h'
    cases h' with
    | dot h _ => exact absurd h h1
    | up h _ => exact absurd h h2
    | step _ _ _ h' => exact ih h'
    | link _ _ hl' _ _ => rw [hl] at hl'; nomatch hl'
  | link h1 h2 hl _ _ ih1 ih2 =>
    intro k' q' h'
    cases h' with
    | dot h _ => exact absurd h h1
    | up h _ => exact absurd h h2
    | step _ _ hl' _ => rw [hl] at hl'; nomatch hl'
    | link _ _ hl' ht hr =>
      rw [hl] at hl'
      cases hl'
      obtain ⟨rfl, rfl⟩ := ih1 ht
      obtain ⟨rfl, rfl⟩ := ih2 hr
      exact ⟨rfl, rfl⟩

theorem linkAt?_concat {fs : FileSystem} {p : List String} {es : List (String × Node)} {name : String} {n : Node}
    (hp : fs.at? p = some (.dir es)) (hl : es.lookup name = some n) : fs.linkAt? (p ++ [name]) = n.target? := by
  rw [linkAt?, at?_concat hp, hl, Option.bind_some]

/-- The first of the names that a look-up walks lead somewhere, and the others are walked from there with the links that are
left. -/
theorem leads_of_walk {fs : FileSystem} (k : Nat) : ∀ {p names rest : List String} {r : Found},
    fs.walk true k p (names ++ rest) = .ok r →
      ∃ q j k', Leads fs p names j q ∧ j + k' ≤ k ∧ fs.walk true k' q rest = .ok r := by
  induction k using Nat.strongRecOn with
  | _ k ihk =>
    intro p names
    induction names generalizing p with
    | nil =>
      intro rest r h
      exact ⟨p, 0, k, .done p, by omega, h⟩
    | cons name names ih =>
      intro rest r h
      rw [List.cons_append] at h
      obtain ⟨es, hp, ⟨rfl, hw⟩ | ⟨rfl, hw⟩ | ⟨hs, ⟨n, hl, hn⟩, hw⟩ | ⟨i, target, rfl, hs, hl, hw⟩⟩ := walk_cons_ok h
      · obtain ⟨q, j, k', hq, hj, hr⟩ := ih hw
        exact ⟨q, j, k', .dot rfl hq, hj, hr⟩
      · obtain ⟨q, j, k', hq, hj, hr⟩ := ih hw
        exact ⟨q, j, k', .up rfl hq, hj, hr⟩
      · obtain ⟨q, j, k', hq, hj, hr⟩ := ih hw
        exact ⟨q, j, k', .step hs.1 hs.2.1 ((linkAt?_concat hp hl).trans hn) hq, hj, hr⟩
      · obtain ⟨p', j₁, k₁, hp', hj₁, hr₁⟩ := ihk i (Nat.lt_succ_self i) hw
        obtain ⟨q, j₂, k₂, hq, hj₂, hr₂⟩ := ihk k₁ (by omega) hr₁
        exact ⟨q, j₁ + j₂ + 1, k₂, .link hs.1 hs.2.1 (linkAt?_concat hp hl) hp' hq, by omega, hr₂⟩

/-- A look-up that succeeds follows its names to where they lead. -/
theorem leads_of_walk_ok {fs : FileSystem} {k : Nat} {p names : List String} {r : Found}
    (h : fs.walk true k p names = .ok r) : ∃ j ≤ k, Leads fs p names j r.position := by
  rw [← List.append_nil names] at h
  obtain ⟨q, j, k', hq, hj, hr⟩ := leads_of_walk k h
  rw [walk_nil] at hr
  split at hr
  · cases hr
    exact ⟨j, by omega, hq⟩
  · nomatch hr

end FileSystem

end WorkspaceLint.Files
