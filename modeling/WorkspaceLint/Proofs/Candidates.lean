import WorkspaceLint.Proofs.Discovery
import WorkspaceLint.Proofs.Locations

/-!
# Which directories are candidates

Two ways to say which directories a discovery finds. By what stands in the tree: the candidate directories are those that are
marked as a project, along names that walks enter, unless their path is too long (`candidateDirs_exact`). By what a directory is
classified as: a candidate has a manifest or a directory by which a project is known, unless its manifest is a link that leads
nowhere, and a directory that the walk comes to is a candidate unless it is no project at all (`discover_classified`).
-/

namespace WorkspaceLint

namespace Discovery

open Files (FileSystem Node IsEntryName IsStep pathBytesLimit)

variable {fs : FileSystem} {rules : Rules} {root : Path}

/-! ## By what stands in the tree -/

/-- A directory, to which names that walks enter lead through directories only, is marked as a project: it holds a manifest that
neither is nor leads to a directory, or a directory, or a link to one, by which a project is known and that walks enter. -/
def IsMarked (fs : FileSystem) (rules : Rules) (root d : Path) : Prop :=
  ∃ es, fs.LeadsDown rules.enters root d es ∧
    ((∃ n, es.lookup rules.manifestName = some n ∧ fs.leadsToDir d rules.manifestName n = false) ∨
      ∃ name ∈ rules.characteristicDirs, rules.enters name = true ∧
        ∃ n, es.lookup name = some n ∧ fs.leadsToDir d name n = true)

theorem isCandidateDir_iff {d : Path} :
    IsCandidateDir fs rules root d ↔ IsMarked fs rules root d ∧ d.text.utf8ByteSize < pathBytesLimit := by
  constructor
  · rintro ⟨es, ⟨hlead, hshort⟩, hmark⟩
    exact ⟨⟨es, hlead, hmark⟩, hshort⟩
  · rintro ⟨⟨es, hlead, hmark⟩, hshort⟩
    exact ⟨es, ⟨hlead, hshort⟩, hmark⟩

/-- Paths from the root that differ and stand in the order of paths are in strictly increasing order by their names. -/
theorem parts_lt_of_le {p q : Path} (hp : p.anchor = .root) (hq : q.anchor = .root) (hle : p.le q = true) (hne : p ≠ q) :
    p.parts < q.parts :=
  Path.parts_lt_of_le (hp.trans hq.symm) hle hne

/-- The candidate directories below a resolved scan root are the directories that are marked as projects and whose paths are not
too long, in strictly increasing order by their names. -/
theorem candidateDirs_exact (hw : fs.WellFormed) {path : Path} (hroot : fs.resolve path = .ok root) :
    ∃ dirs, candidateDirs fs rules root = .ok dirs ∧ (dirs.Pairwise fun d d' => d.parts < d'.parts) ∧
      ∀ d, d ∈ dirs ↔ IsMarked fs rules root d ∧ d.text.utf8ByteSize < pathBytesLimit := by
  obtain ⟨dirs, hdirs⟩ := exists_candidateDirs fs rules (FileSystem.nul_not_mem_resolve hw hroot)
  have hmem : ∀ d, d ∈ dirs ↔ IsCandidateDir fs rules root d := fun d => mem_candidateDirs_iff hw hdirs
  have hanchor : ∀ d ∈ dirs, d.anchor = .root := by
    intro d hd
    obtain ⟨es, ⟨⟨n, names, -, -, -, rfl⟩, -⟩, -⟩ := (hmem d).1 hd
    rw [Path.below_anchor, FileSystem.resolve_eq_ok hroot]
    rfl
  refine ⟨dirs, hdirs, ?_, fun d => (hmem d).trans isCandidateDir_iff⟩
  refine ((candidateDirs_pairwise hdirs).and (candidateDirs_nodup hdirs)).imp_of_mem fun {d d'} hd hd' h => ?_
  exact parts_lt_of_le (hanchor d hd) (hanchor d' hd') h.1 h.2

namespace Candidates

/-- A project, a scaffold whose directory of tests is a link, and a directory of which only the cache has a manifest. -/
def markedTree : FileSystem where
  entries := [("shared", .dir [("node_modules", .dir [("package.json", .file [])])]), ("w", SampleTree.project []),
    ("b", .dir [("tests", .link "../shared")])]

theorem markedTree_wellFormed : markedTree.WellFormed := by decide

theorem markedTree_resolve : markedTree.resolve (.absolute []) = .ok (.absolute []) :=
  markedTree_wellFormed.resolve_absolute (n := .dir markedTree.entries) rfl rfl

/-- Directories in each other, the last of which holds a manifest and has a path that is too long. -/
def deepTree : FileSystem where
  entries := Locations.nested [("package.json", .file [])] 196

/-- The path of the directory with the manifest. -/
def deepRoot : Path := .absolute (List.replicate 196 "directory-of-project")

/-- What stands at the end of directories in each other. -/
theorem at?_nested (es : List (String × Node)) (n : Nat) :
    (Node.dir (Locations.nested es n)).at? (List.replicate n "directory-of-project") = some (.dir es) := by
  induction n with
  | zero => rfl
  | succ n ih =>
    rw [List.replicate_succ, Files.Node.at?_cons]
    exact ih

set_option maxRecDepth 20000 in
theorem deepTree_wellFormed : deepTree.WellFormed := by decide

set_option maxRecDepth 20000 in
theorem deepRoot_tooLong : pathBytesLimit ≤ deepRoot.text.utf8ByteSize := by decide

/-- The directories lead down to the one with the manifest. -/
theorem leadsDown_deepTree :
    deepTree.LeadsDown ({} : Rules).enters (.absolute []) deepRoot [("package.json", .file [])] := by
  refine ⟨_, List.replicate 196 "directory-of-project", rfl, at?_nested _ 196, fun x hx => ?_, rfl⟩
  rw [List.eq_of_mem_replicate hx]
  decide

theorem isMarked_deepTree : IsMarked deepTree {} (.absolute []) deepRoot :=
  ⟨_, leadsDown_deepTree, Or.inl ⟨_, rfl, rfl⟩⟩

end Candidates

/-- The project and the scaffold are the candidates below the root, in this order. -/
theorem candidateDirs_exact_markedTree :
    ∃ dirs, candidateDirs Candidates.markedTree {} (.absolute []) = .ok dirs ∧ (dirs.Pairwise fun d d' => d.parts < d'.parts) ∧
      .absolute ["b"] ∈ dirs ∧ .absolute ["w"] ∈ dirs ∧ .absolute ["shared", "node_modules"] ∉ dirs := by
  obtain ⟨dirs, hdirs, hsorted, hmem⟩ :=
    @candidateDirs_exact _ {} _ Candidates.markedTree_wellFormed _ Candidates.markedTree_resolve
  refine ⟨dirs, hdirs, hsorted, (hmem _).2 ⟨?_, by decide⟩, (hmem _).2 ⟨?_, by decide⟩, fun h => ?_⟩
  · exact ⟨_, ⟨_, ["b"], rfl, rfl, by decide, rfl⟩, Or.inr ⟨"tests", by decide, by decide, _, rfl, by decide⟩⟩
  · exact ⟨_, ⟨_, ["w"], rfl, rfl, by decide, rfl⟩, Or.inl ⟨_, rfl, rfl⟩⟩
  · obtain ⟨⟨es, ⟨n, names, -, -, hkeep, he⟩, -⟩, -⟩ := (hmem _).1 h
    obtain rfl : ["shared", "node_modules"] = names := congrArg Path.parts he
    exact absurd (hkeep "node_modules" (by simp)) (by decide)

/-- A directory that is marked as a project is no candidate when its path is too long. -/
theorem candidateDirs_omits_deepTree :
    Candidates.deepTree.WellFormed ∧ Candidates.deepTree.resolve (.absolute []) = .ok (.absolute []) ∧
      IsMarked Candidates.deepTree {} (.absolute []) Candidates.deepRoot ∧
      ∃ dirs, candidateDirs Candidates.deepTree {} (.absolute []) = .ok dirs ∧ Candidates.deepRoot ∉ dirs := by
  have hw := Candidates.deepTree_wellFormed
  have hnul : '\x00' ∉ (Path.absolute []).text.toList := by decide
  obtain ⟨dirs, hdirs⟩ := exists_candidateDirs Candidates.deepTree {} hnul
  refine ⟨hw, ?_, Candidates.isMarked_deepTree, dirs, hdirs, fun h => ?_⟩
  · exact hw.resolve_absolute (n := .dir Candidates.deepTree.entries) rfl rfl
  · obtain ⟨-, hshort⟩ := isCandidateDir_iff.1 ((mem_candidateDirs_iff hw hdirs).1 h)
    exact absurd Candidates.deepRoot_tooLong (Nat.not_le.2 hshort)

/-! ## By what a directory is classified as -/

/-- The manifest of a directory is a link that leads nowhere. -/
def LosesManifest (fs : FileSystem) (rules : Rules) (root d : Path) : Prop :=
  ∃ es target fault, fs.Reaches rules.enters root d es ∧ es.lookup rules.manifestName = some (.link target) ∧
    fs.stat? (d.child rules.manifestName) = .error fault

/-- A look-up by kind of an entry tells what it is or leads to, and the walk takes it for a directory when it is one; or the entry
is a link that leads nowhere. -/
theorem leadsTo_entry (hw : fs.WellFormed) {keep : String → Bool} {d : Path} {es : List (String × Node)}
    (h : fs.Reaches keep root d es) {name : String} {n : Node} (hn : es.lookup name = some n) {kind : Node → Bool} {b : Bool}
    (hl : fs.leadsTo kind (d.child name) = .ok b) (hnul : '\x00' ∉ (d.child name).text.toList) :
    (∃ m, m.target? = none ∧ b = kind m ∧ fs.leadsToDir d name n = m.isDir) ∨
      fs.leadsToDir d name n = false ∧ ∃ target fault, n = .link target ∧ fs.stat? (d.child name) = .error fault := by
  have hreal : n.target? = none → b = kind n := by
    intro ht
    obtain ⟨q, hr⟩ := h.route hw
    have hstep : ∀ x ∈ [name], IsStep x :=
      List.forall_mem_singleton.2 ((h.wellFormed hw).entry (Files.Node.mem_of_lookup hn)).1.isStep
    have hat : (Node.dir es).at? [name] = some n := by
      rw [Files.Node.at?_cons, Files.Node.child?_dir, hn]
      rfl
    exact (FileSystem.leadsTo_of_route (FileSystem.route_below hr hstep hat ht) hnul hl).1
  cases n with
  | file content => exact Or.inl ⟨.file content, rfl, hreal rfl, rfl⟩
  | dir entries => exact Or.inl ⟨.dir entries, rfl, hreal rfl, rfl⟩
  | link target =>
    rw [FileSystem.leadsToDir]
    cases hs : fs.stat? (d.child name) with
    | error fault => exact Or.inr ⟨rfl, target, fault, rfl, rfl⟩
    | ok m =>
      obtain ⟨-, q, hr⟩ := FileSystem.stat?_eq_ok.1 hs
      exact Or.inl ⟨m, (FileSystem.route_spec hr).2.1, (FileSystem.leadsTo_of_route hr hnul hl).1, rfl⟩

/-- The names that are looked up to classify a directory are names that entries can have and that walks enter. -/
theorem isEntryName_classified : IsEntryName ({} : Rules).manifestName ∧
    ∀ name ∈ ({} : Rules).characteristicDirs, IsEntryName name ∧ ({} : Rules).enters name = true := by decide

/-- A candidate directory that is classified has a manifest or a directory by which a project is known, or its manifest is a link
that leads nowhere. -/
theorem classify_candidate (hw : fs.WellFormed) {path d : Path} (hroot : fs.resolve path = .ok root)
    (hd : IsCandidateDir fs {} root d) {c : Candidate} {ds : List Diagnostic}
    (h : (classify fs {} root d).outcome = .ok (c, ds)) :
    c.hasManifest = true ∨ c.hasCharacteristicDirs = true ∨ LosesManifest fs {} root d := by
  obtain ⟨hasManifest, existing, hmanifest, hexisting, -, rfl⟩ := classify_eq_ok.1 h
  obtain ⟨hpackage, hnames⟩ := isEntryName_classified
  obtain ⟨es, hreach, hmark⟩ := hd
  obtain ⟨place, rfl, hplace⟩ := hreach.exists_names hw hroot
  have hnul : ∀ {name}, IsEntryName name → '\x00' ∉ ((Path.absolute place).child name).text.toList := fun hname =>
    Files.nul_not_mem_absolute (List.forall_mem_append.2 ⟨hplace, List.forall_mem_singleton.2 hname⟩)
  rcases hmark with ⟨n, hn, hno⟩ | ⟨name, hname, -, n, hn, hyes⟩
  · rw [Path.join_ofString_part hpackage.isPart] at hmanifest
    rcases leadsTo_entry hw hreach hn hmanifest (hnul hpackage) with ⟨m, hm, hfile, hdir⟩ | ⟨-, target, fault, rfl, hlost⟩
    · left
      rw [hno] at hdir
      cases m with
      | file _ => exact hfile
      | dir _ => nomatch hdir
      | link _ => nomatch hm
    · exact Or.inr (Or.inr ⟨es, target, fault, hreach, hn, hlost⟩)
  · obtain ⟨g, hg, rfl⟩ := Files.namesBelow_eq_ok.1 hexisting
    have hdir := hg name hname
    rw [Path.join_ofString_part (hnames name hname).1.isPart] at hdir
    have hfound : g name = true := by
      rcases leadsTo_entry hw hreach hn hdir (hnul (hnames name hname).1) with ⟨m, -, hisDir, hm⟩ | ⟨hno, -⟩
      · exact hisDir.trans (hm.symm.trans hyes)
      · rw [hno] at hyes
        nomatch hyes
    refine Or.inr (Or.inl (decide_eq_true fun hnil => ?_))
    exact List.filter_eq_nil_iff.1 hnil name hname hfound

/-- A directory is taken for no project at all when it has neither a manifest nor a directory by which a project is known. -/
theorem classification_eq_ignorable {d : Path} {c : Candidate} {ds : List Diagnostic}
    (h : (classify fs rules root d).outcome = .ok (c, ds)) :
    c.classification = .ignorable ↔ c.hasManifest = false ∧ c.hasCharacteristicDirs = false := by
  obtain ⟨hasManifest, existing, -, -, -, rfl⟩ := classify_eq_ok.1 h
  cases hasManifest with
  | true =>
    by_cases hds : ds = []
    · simp [classificationOf, hds]
    · simp [classificationOf, hds]
  | false =>
    by_cases hnone : existing = []
    · simp [classificationOf, hnone]
    · simp [classificationOf, hnone]

/-- A directory whose manifest leads nowhere is classified as one without a manifest. -/
theorem LosesManifest.hasManifest {d : Path} (hlost : LosesManifest fs {} root d) {c : Candidate} {ds : List Diagnostic}
    (h : (classify fs {} root d).outcome = .ok (c, ds)) : c.hasManifest = false := by
  obtain ⟨es, target, fault, -, -, hstat⟩ := hlost
  obtain ⟨hasManifest, existing, hmanifest, -, -, rfl⟩ := classify_eq_ok.1 h
  cases hasManifest with
  | false => rfl
  | true =>
    rw [Path.join_ofString_part isEntryName_classified.1.isPart] at hmanifest
    obtain ⟨-, content, hfile⟩ := FileSystem.isFile?_eq_true.1 hmanifest
    rw [hstat] at hfile
    nomatch hfile

/-- A directory that the walk comes to is a candidate when it has a manifest or a directory by which a project is known. -/
theorem isCandidateDir_of_classify (hw : fs.WellFormed) {d : Path} {es : List (String × Node)}
    (hreach : fs.Reaches ({} : Rules).enters root d es) {c : Candidate} {ds : List Diagnostic}
    (h : (classify fs {} root d).outcome = .ok (c, ds)) (hc : c.classification ≠ .ignorable) : IsCandidateDir fs {} root d := by
  rw [Ne, classification_eq_ignorable h, Classical.not_and_iff_not_or_not] at hc
  obtain ⟨hasManifest, existing, hmanifest, hexisting, -, rfl⟩ := classify_eq_ok.1 h
  obtain ⟨hpackage, hnames⟩ := isEntryName_classified
  rcases hc with hc | hc
  · obtain rfl : hasManifest = true := by simpa using hc
    rw [Path.join_ofString_part hpackage.isPart] at hmanifest
    exact isCandidateDir_of_isFile hw hreach hpackage.isStep hmanifest
  · obtain ⟨g, hg, rfl⟩ := Files.namesBelow_eq_ok.1 hexisting
    have hne : ({} : Rules).characteristicDirs.filter g ≠ [] := by simpa using hc
    obtain ⟨name, hname⟩ := List.exists_mem_of_ne_nil _ hne
    obtain ⟨hmem, hfound⟩ := List.mem_filter.1 hname
    have hdir := hg name hmem
    rw [hfound, Path.join_ofString_part (hnames name hmem).1.isPart] at hdir
    exact isCandidateDir_of_isDir hw hreach hmem (hnames name hmem).1.isStep (hnames name hmem).2 hdir

/-- The walk and the classification agree: a candidate has a manifest or a directory by which a project is known, or its manifest
is a link that leads nowhere; it is taken for no project at all exactly when it has neither, that is, for want of a manifest
behind such a link. A directory that the walk comes to and that is classified as something else is a candidate. -/
theorem discover_classified (hw : fs.WellFormed) {scanRoot : Path} {r : Result}
    (h : (discover fs {} scanRoot).outcome = .ok r) :
    ∃ root, fs.resolve scanRoot = .ok root ∧
      (∀ c ∈ r.candidates, (c.hasManifest = true ∨ c.hasCharacteristicDirs = true ∨ LosesManifest fs {} root c.root) ∧
        (c.classification = .ignorable ↔ c.hasManifest = false ∧ c.hasCharacteristicDirs = false) ∧
        (c.classification = .ignorable ↔ LosesManifest fs {} root c.root ∧ c.hasCharacteristicDirs = false)) ∧
      ∀ d es, fs.Reaches ({} : Rules).enters root d es → ∀ c ds, (classify fs {} root d).outcome = .ok (c, ds) →
        c.classification ≠ .ignorable → c ∈ r.candidates := by
  obtain ⟨root, dirs, g, hroot, hdirs, hg, rfl⟩ := discover_eq_ok.1 h
  refine ⟨root, hroot, fun c hc => ?_, fun d es hreach c ds hclassify hc => ?_⟩
  · obtain ⟨d, hd, rfl⟩ := List.mem_map.1 hc
    have hclassify := hg d hd
    have hsigns := classify_candidate hw hroot ((mem_candidateDirs_iff hw hdirs).1 hd) hclassify
    have hignorable := classification_eq_ignorable hclassify
    rw [root_of_classify hclassify]
    refine ⟨hsigns, hignorable, hignorable.trans ⟨fun ⟨hno, hnone⟩ => ⟨?_, hnone⟩, fun ⟨hlost, hnone⟩ =>
      ⟨hlost.hasManifest hclassify, hnone⟩⟩⟩
    rcases hsigns with hyes | hyes | hlost
    · rw [hno] at hyes
      nomatch hyes
    · rw [hnone] at hyes
      nomatch hyes
    · exact hlost
  · have hd := (mem_candidateDirs_iff hw hdirs).2 (isCandidateDir_of_classify hw hreach hclassify hc)
    have hsame : g d = (c, ds) := Except.ok.inj ((hg d hd).symm.trans hclassify)
    exact List.mem_map.2 ⟨d, hd, congrArg Prod.fst hsame⟩

namespace Candidates

/-- A directory with nothing but a link in the place of its manifest. -/
def linkTree (target : String) : FileSystem where
  entries := [("w", .dir [("package.json", .link target)])]

/-- What such a directory is found to be when its link leads nowhere. -/
def linkCandidate : Candidate := ⟨.absolute ["w"], false, false, .ignorable⟩

theorem discover_linkTree {target : String} (hw : (linkTree target).WellFormed)
    (hdirs : candidateDirs (linkTree target) {} (.absolute []) = .ok [.absolute ["w"]])
    (hclassify : (classify (linkTree target) {} (.absolute []) (.absolute ["w"])).outcome = .ok (linkCandidate, [])) :
    (discover (linkTree target) {} (.absolute [])).outcome = .ok ⟨[linkCandidate], []⟩ :=
  discover_eq_ok.2 ⟨.absolute [], [.absolute ["w"]], fun _ => (linkCandidate, []),
    hw.resolve_absolute (n := .dir (linkTree target).entries) rfl rfl, hdirs, List.forall_mem_singleton.2 hclassify, rfl⟩

end Candidates

/-- A link to itself in the place of a manifest makes a candidate that is no project at all. -/
theorem discover_classified_loop :
    ∃ r, (discover (Candidates.linkTree "package.json") {} (.absolute [])).outcome = .ok r ∧
      r.candidates = [⟨.absolute ["w"], false, false, .ignorable⟩] ∧
      ∃ root, LosesManifest (Candidates.linkTree "package.json") {} root (.absolute ["w"]) := by
  have hw : (Candidates.linkTree "package.json").WellFormed := by decide
  have h := Candidates.discover_linkTree hw (candidateDirs_of_pairwise (by decide) (List.pairwise_singleton _ _)) (by decide)
  obtain ⟨root, -, hall, -⟩ := discover_classified hw h
  obtain ⟨-, -, hlost⟩ := hall Candidates.linkCandidate (by simp)
  exact ⟨_, h, rfl, root, (hlost.1 rfl).1⟩

/-- A candidate may have neither a manifest nor a directory by which a project is known: its manifest is a link to something that
is gone. -/
theorem discover_finds_ignorable :
    (Candidates.linkTree "gone").WellFormed ∧ ∃ r, (discover (Candidates.linkTree "gone") {} (.absolute [])).outcome = .ok r ∧
      ∃ c ∈ r.candidates, c.hasManifest = false ∧ c.hasCharacteristicDirs = false ∧ c.classification = .ignorable := by
  have hw : (Candidates.linkTree "gone").WellFormed := by decide
  have h := Candidates.discover_linkTree hw (candidateDirs_of_pairwise (by decide) (List.pairwise_singleton _ _)) (by decide)
  exact ⟨hw, _, h, Candidates.linkCandidate, by simp, rfl, rfl, rfl⟩

end Discovery

end WorkspaceLint
