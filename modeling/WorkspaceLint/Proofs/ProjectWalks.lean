import WorkspaceLint.Proofs.Candidates
import WorkspaceLint.Proofs.Files.Listing

/-!
# What a walk through a project lists

A walk from a directory that lies on another walk is a part of that one: it visits what the other visits there, in the same order
(`walkFrom_below`). The files of a project are each listed once, and they are exactly the files that stand in the tree
(`projectFiles_exact`), but for those in a directory whose path is too long (`projectFiles_omits_deep_file`); the ones below a
directory are those that are listed from there.
-/

namespace WorkspaceLint

open Files (FileSystem Node Visit IsEntryName pathBytesLimit)

namespace Files

namespace FileSystem

variable {fs : FileSystem} {keep : String → Bool} {path root d : Path} {es : List (String × Node)}

/-! ## Visits below a place -/

/-- A directory whose path is too long is not visited, and neither is what it holds. -/
theorem visits_of_tooLong (hlong : pathBytesLimit ≤ path.text.utf8ByteSize) (n : Node) : fs.visits keep path n = [] := by
  cases n with
  | file _ => rfl
  | link _ => rfl
  | dir es => rw [visits, if_pos hlong]

/-- What is visited below an entry lies in no entry of another name. -/
theorem not_isWithin_of_mem_visits {name other : String} {rest : List String} {n : Node} (hw : n.WellFormed) (hne : other ≠ name)
    {v : Visit} (hv : v ∈ fs.visits keep (path.child other) n) : ¬v.path.IsWithin (path.below (name :: rest)) := by
  obtain ⟨names, hpath⟩ := exists_path_of_mem_visits hw hv
  rintro ⟨more, hmore⟩
  rw [hpath, Path.child_below, Path.below_below, Path.below_inj] at hmore
  exact hne (List.cons_eq_cons.1 hmore).1

/-- Nothing of what is visited below entries lies below a name that none of them has. -/
theorem filter_visitsBelow_of_not_mem {name : String} {rest : List String} (hw : ∀ e ∈ es, IsEntryName e.1 ∧ e.2.WellFormed)
    (hname : name ∉ es.map (·.1)) : (fs.visitsBelow keep path es).filter (·.path.IsWithin (path.below (name :: rest))) = [] := by
  refine List.filter_eq_nil_iff.2 fun v hv hin => ?_
  obtain ⟨other, n, hn, -, hv⟩ := mem_visitsBelow_iff.1 hv
  have hne : other ≠ name := fun he => hname (List.mem_map.2 ⟨_, hn, he⟩)
  exact not_isWithin_of_mem_visits (hw _ hn).2 hne hv (of_decide_eq_true hin)

/-- Of what is visited below entries only what the entry of a name holds lies below that name. -/
theorem filter_visitsBelow {name : String} {rest : List String} {c : Node} (hk : keep name = true) (hd : (es.map (·.1)).Nodup)
    (hw : ∀ e ∈ es, IsEntryName e.1 ∧ e.2.WellFormed) (hmem : (name, c) ∈ es) :
    (fs.visitsBelow keep path es).filter (·.path.IsWithin (path.below (name :: rest))) =
      (fs.visits keep (path.child name) c).filter (·.path.IsWithin (path.below (name :: rest))) := by
  induction es with
  | nil => exact absurd hmem List.not_mem_nil
  | cons e es ih =>
    obtain ⟨k, m⟩ := e
    rw [List.map_cons, List.nodup_cons] at hd
    rw [List.forall_mem_cons] at hw
    rw [visitsBelow, List.filter_append]
    rcases List.mem_cons.1 hmem with he | hmem
    · cases he
      rw [if_pos hk, filter_visitsBelow_of_not_mem hw.2 hd.1, List.append_nil]
    · have hne : k ≠ name := by
        rintro rfl
        exact hd.1 (List.mem_map.2 ⟨_, hmem, rfl⟩)
      have hfirst : (if keep k then fs.visits keep (path.child k) m else []).filter
          (·.path.IsWithin (path.below (name :: rest))) = [] := by
        refine List.filter_eq_nil_iff.2 fun v hv hin => ?_
        split at hv
        · exact not_isWithin_of_mem_visits hw.1.2 hne hv (of_decide_eq_true hin)
        · exact absurd hv List.not_mem_nil
      rw [hfirst, List.nil_append]
      exact ih hd.2 hw.2 hmem

/-- What is visited at or below a place to which kept names lead is what a walk from there visits, in the same order. -/
theorem filter_visits {names : List String} {m : Node} : ∀ {path : Path} {n : Node}, n.WellFormed → n.at? names = some m →
    (∀ x ∈ names, keep x = true) →
      (fs.visits keep path n).filter (·.path.IsWithin (path.below names)) = fs.visits keep (path.below names) m := by
  induction names with
  | nil =>
    intro path n hw h _
    cases h
    rw [Path.below_nil]
    refine List.filter_eq_self.2 fun v hv => ?_
    obtain ⟨names, hpath⟩ := exists_path_of_mem_visits hw hv
    exact decide_eq_true ⟨names, hpath⟩
  | cons name rest ih =>
    intro path n hw h hk
    obtain ⟨es, c, rfl, hc, hrest⟩ := Node.eq_dir_of_at?_cons h
    rw [List.forall_mem_cons] at hk
    by_cases hlong : pathBytesLimit ≤ path.text.utf8ByteSize
    · have hbelow : pathBytesLimit ≤ (path.below (name :: rest)).text.utf8ByteSize :=
        Nat.le_of_not_lt fun hshort => Nat.not_lt.2 hlong (Path.utf8ByteSize_text_lt_of_below (by decide) hshort)
      rw [visits_of_tooLong hlong, visits_of_tooLong hbelow, List.filter_nil]
    · have hhead : ¬(fs.visit keep path es).path.IsWithin (path.below (name :: rest)) := by
        rintro ⟨more, hmore⟩
        rw [Path.below_below] at hmore
        nomatch Path.below_inj.1 ((Path.below_nil path).trans hmore)
      have hentries := (Node.wellFormed_dir es).1 hw
      have hmem := Node.mem_of_lookup hc
      rw [visits, if_neg hlong, List.filter_cons_of_neg (by simpa using hhead),
        filter_visitsBelow hk.1 hentries.1 hentries.2 hmem, ← Path.child_below]
      exact ih (hentries.2 _ hmem).2 hrest hk.2

/-! ## Walks -/

/-- A walk from a directory that kept names lead to visits what the whole walk visits there, in the same order. -/
theorem walkFrom_below (hw : fs.WellFormed) {visits : List Visit} (h : fs.walkFrom keep root = .ok visits)
    (hd : fs.LeadsDown keep root d es) : fs.walkFrom keep d = .ok (visits.filter (·.path.IsWithin d)) := by
  have hlead := hd
  obtain ⟨n, names, hn, hat, hkeep, rfl⟩ := hd
  obtain ⟨hnul, ⟨m, hm, rfl⟩ | ⟨fault, hm, -⟩⟩ := walkFrom_eq_ok.1 h
  · rw [hn] at hm
    cases hm
    have hwn := hw.stat? hn
    rw [filter_visits hwn hat hkeep, walkFrom_eq_ok]
    constructor
    · rw [Path.nul_not_mem_text] at hnul ⊢
      exact List.forall_mem_append.2 ⟨hnul, fun x hx => ((Node.WellFormed.below hwn hat).2 x hx).2.2.2.2.1⟩
    · by_cases hlong : pathBytesLimit ≤ (root.below names).text.utf8ByteSize
      · exact Or.inr ⟨.nameTooLong, stat?_of_tooLong hlong, visits_of_tooLong hlong _⟩
      · have hshort := Nat.lt_of_not_le hlong
        obtain ⟨q, hr⟩ := Reaches.route hw ⟨hlead, hshort⟩
        exact Or.inl ⟨.dir es, stat?_eq_ok.2 ⟨hshort, q, hr⟩, rfl⟩
  · rw [hn] at hm
    nomatch hm

/-! ## Files -/

/-- A file below a path, as it stands in the tree: an entry that neither is nor leads to a directory, of a directory to which kept
names lead through directories only. -/
def HoldsFile (fs : FileSystem) (keep : String → Bool) (root file : Path) : Prop :=
  ∃ directory entries name n, fs.LeadsDown keep root directory entries ∧ entries.lookup name = some n ∧
    fs.leadsToDir directory name n = false ∧ file = directory.child name

/-- A walk comes to the files that stand in directories whose paths are not too long. -/
theorem reachesFile_iff {p : Path} :
    fs.ReachesFile keep root p ↔ fs.HoldsFile keep root p ∧ p.parent.text.utf8ByteSize < pathBytesLimit := by
  constructor
  · rintro ⟨directory, entries, name, n, ⟨hlead, hshort⟩, hn, hl, rfl⟩
    exact ⟨⟨directory, entries, name, n, hlead, hn, hl, rfl⟩, by rwa [Path.child_parent]⟩
  · rintro ⟨⟨directory, entries, name, n, hlead, hn, hl, rfl⟩, hshort⟩
    rw [Path.child_parent] at hshort
    exact ⟨directory, entries, name, n, ⟨hlead, hshort⟩, hn, hl, rfl⟩

/-- A file that is reached does not stand where kept names lead to a directory. -/
theorem ReachesFile.ne_of_leadsDown {p : Path} (h : fs.ReachesFile keep root p) (hd : fs.LeadsDown keep root d es) : p ≠ d := by
  obtain ⟨directory, entries, name, n, ⟨⟨m, names, hm, hat, -, rfl⟩, -⟩, hn, hl, rfl⟩ := h
  obtain ⟨m', names', hm', hat', -, rfl⟩ := hd
  intro heq
  rw [Path.below_child, Path.below_inj] at heq
  rw [hm] at hm'
  cases hm'
  rw [← heq, Node.at?_concat hat, hn] at hat'
  cases hat'
  nomatch hl

end FileSystem

/-- The files of visits that lie in a directory are those of the visits that lie there, unless the directory is among the files. -/
theorem filter_flatMap_filePaths {d : Path} {visits : List Visit} (h : d ∉ visits.flatMap (·.filePaths)) :
    (visits.flatMap (·.filePaths)).filter (·.IsWithin d) = (visits.filter (·.path.IsWithin d)).flatMap (·.filePaths) := by
  induction visits with
  | nil => rfl
  | cons v rest ih =>
    rw [List.flatMap_cons, List.mem_append, not_or] at h
    have hin : ∀ p ∈ v.filePaths, p.IsWithin d ↔ v.path.IsWithin d := by
      intro p hp
      obtain ⟨name, -, rfl⟩ := List.mem_map.1 hp
      exact Path.child_isWithin_iff.trans (or_iff_left fun he => h.1 (he ▸ hp))
    rw [List.flatMap_cons, List.filter_append, ih h.2]
    by_cases hv : v.path.IsWithin d
    · rw [List.filter_cons_of_pos (by simpa using hv), List.flatMap_cons,
        List.filter_eq_self.2 fun p hp => decide_eq_true ((hin p hp).2 hv)]
    · rw [List.filter_cons_of_neg (by simpa using hv),
        List.filter_eq_nil_iff.2 fun p hp hp' => hv ((hin p hp).1 (of_decide_eq_true hp')), List.nil_append]

end Files

variable {fs : FileSystem} {rules : Rules} {root : Path} {files : List Path}

/-- The files that are listed from a directory of a project are those below it among the files of the project, in the same order. -/
theorem projectFiles_below (hw : fs.WellFormed) (h : projectFiles fs rules root = .ok files) {d : Path}
    {es : List (String × Node)} (hd : fs.LeadsDown rules.enters root d es) :
    projectFiles fs rules d = .ok (files.filter (·.IsWithin d)) := by
  have hno : d ∉ files := fun hmem => ((Files.mem_projectFiles_iff hw h).1 hmem).ne_of_leadsDown hd rfl
  obtain ⟨visits, hvisits, rfl⟩ := Files.projectFiles_eq_ok.1 h
  exact Files.projectFiles_eq_ok.2 ⟨_, FileSystem.walkFrom_below hw hvisits hd, Files.filter_flatMap_filePaths hno⟩

/-- The files of a project can be listed when its path holds no null character. Each file is then listed once, and what is listed are
the files that stand in the tree, but for those in a directory whose path is too long. From a directory to which names that walks
enter lead through directories only, just the files below it are listed, in the same order. -/
theorem projectFiles_exact (hw : fs.WellFormed) (rules : Rules) (root : Path) :
    ((∃ files, projectFiles fs rules root = .ok files) ↔ '\x00' ∉ root.text.toList) ∧
      ∀ files, projectFiles fs rules root = .ok files →
        files.Nodup ∧
        (∀ p, p ∈ files ↔ fs.HoldsFile rules.enters root p ∧ p.parent.text.utf8ByteSize < pathBytesLimit) ∧
        ∀ d es, fs.LeadsDown rules.enters root d es → projectFiles fs rules d = .ok (files.filter (·.IsWithin d)) := by
  refine ⟨⟨?_, Files.exists_projectFiles fs rules⟩, fun files hfiles => ⟨Files.projectFiles_nodup hw hfiles, fun p => ?_, ?_⟩⟩
  · rintro ⟨files, hfiles⟩
    obtain ⟨visits, hvisits, -⟩ := Files.projectFiles_eq_ok.1 hfiles
    exact (FileSystem.walkFrom_eq_ok.1 hvisits).1
  · exact (Files.mem_projectFiles_iff hw hfiles).trans FileSystem.reachesFile_iff
  · exact fun d es hd => projectFiles_below hw hfiles hd

namespace ProjectWalks

/-- A project with a hidden directory, a dependency cache, a link that leads nowhere, and a directory with a link back to the
project. -/
def tree : FileSystem where
  entries := [("w", .dir [(".git", .dir [("config", .file [])]), ("gone", .link "nowhere"),
    ("node_modules", .dir [("a.ts", .file [])]), ("sub", .dir [("a.ts", .file []), ("up", .link "..")])])]

end ProjectWalks

/-- The link that leads nowhere is listed and the link back to the project is not; from the directory only its own file is listed. -/
theorem projectFiles_exact_tree :
    projectFiles ProjectWalks.tree {} (.absolute ["w"]) = .ok [.absolute ["w", "gone"], .absolute ["w", "sub", "a.ts"]] ∧
      ProjectWalks.tree.HoldsFile ({} : Rules).enters (.absolute ["w"]) (.absolute ["w", "gone"]) ∧
      ¬ProjectWalks.tree.HoldsFile ({} : Rules).enters (.absolute ["w"]) (.absolute ["w", "sub", "up"]) ∧
      projectFiles ProjectWalks.tree {} (.absolute ["w", "sub"]) = .ok [.absolute ["w", "sub", "a.ts"]] := by
  have hw : ProjectWalks.tree.WellFormed := by decide
  have hfiles : projectFiles ProjectWalks.tree {} (.absolute ["w"]) =
      .ok [.absolute ["w", "gone"], .absolute ["w", "sub", "a.ts"]] := by decide +kernel
  obtain ⟨-, hall⟩ := projectFiles_exact hw {} (.absolute ["w"])
  obtain ⟨-, hmem, hbelow⟩ := hall _ hfiles
  refine ⟨hfiles, ((hmem _).1 (by simp)).1, fun hup => ?_, ?_⟩
  · exact absurd ((hmem _).2 ⟨hup, by decide⟩) (by decide)
  · have hsub : ProjectWalks.tree.LeadsDown ({} : Rules).enters (.absolute ["w"]) (.absolute ["w", "sub"])
        [("a.ts", .file []), ("up", .link "..")] := ⟨_, ["sub"], rfl, rfl, by decide, rfl⟩
    exact (hbelow _ _ hsub).trans (congrArg Except.ok (by decide))

/-- A file in directories in each other is not listed when the path of the last one is too long. -/
theorem projectFiles_omits_deep_file : Discovery.Candidates.deepTree.WellFormed ∧
    Discovery.Candidates.deepTree.HoldsFile ({} : Rules).enters (.absolute [])
      (Discovery.Candidates.deepRoot.child "package.json") ∧
    projectFiles Discovery.Candidates.deepTree {} (.absolute []) = .ok [] := by
  refine ⟨Discovery.Candidates.deepTree_wellFormed, ?_, by decide +kernel⟩
  exact ⟨_, _, "package.json", _, Discovery.Candidates.leadsDown_deepTree, rfl, rfl, rfl⟩

end WorkspaceLint
