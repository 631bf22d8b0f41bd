import WorkspaceLint.Proofs.Checks
import WorkspaceLint.Proofs.Files.Listing
import WorkspaceLint.Proofs.LintRun
import WorkspaceLint.Proofs.SampleTree
import WorkspaceLint.Proofs.Sorting
import WorkspaceLint.Proofs.SourceScan

/-!
# A run does not depend on the order in which directories are listed

What walks meet comes in the order of the listings, and what a run reports does not: everything that is collected is sorted by an
order that tells its members apart before it shows (`lint_relisted`). The order would show where a look-up of a listed entry fails,
and where contracts lie outside of their project, since the first such failure ends the checks.
-/

namespace WorkspaceLint

open Files (FileSystem Node Found IsStep IsEntryName Relisted)

variable {fs fs' : FileSystem} {rules : Rules}

/-! ## Candidates -/

namespace Discovery

theorem IsCandidateDir.relisted (h : Relisted fs fs') {root d : Path} (hc : IsCandidateDir fs rules root d) :
    IsCandidateDir fs' rules root d := by
  obtain ⟨es, hr, hc⟩ := hc
  obtain ⟨es', hr', hk⟩ := h.reaches hr
  have hsame : ∀ {name n b}, es.lookup name = some n → fs.leadsToDir d name n = b →
      ∃ n', es'.lookup name = some n' ∧ fs'.leadsToDir d name n' = b := by
    intro name n b hn hl
    obtain ⟨n', hn', hkn⟩ := Relisted.lookup_of_kinds hk hn
    exact ⟨n', hn', (h.sameShape.leadsToDir d name hkn).symm.trans hl⟩
  refine ⟨es', hr', hc.imp (fun ⟨n, hn, hl⟩ => hsame hn hl) fun ⟨name, hname, hkeep, n, hn, hl⟩ => ?_⟩
  exact ⟨name, hname, hkeep, hsame hn hl⟩

/-- The candidate directories are the same. -/
theorem candidateDirs_relisted (h : Relisted fs fs') {root : Path} (hroot : root.anchor = .root) :
    candidateDirs fs rules root = candidateDirs fs' rules root := by
  by_cases hnul : '\x00' ∈ root.text.toList
  · rw [candidateDirs, candidateDirs, FileSystem.walkFrom, FileSystem.walkFrom, if_pos (by simpa using hnul),
      if_pos (by simpa using hnul)]
  · obtain ⟨visits, hv⟩ := FileSystem.exists_walkFrom fs rules.enters hnul
    obtain ⟨visits', hv'⟩ := FileSystem.exists_walkFrom fs' rules.enters hnul
    have hdirs := candidateDirs_eq_ok.2 ⟨visits, hv, rfl⟩
    have hdirs' := candidateDirs_eq_ok.2 ⟨visits', hv', rfl⟩
    have hmem : ∀ d, d ∈ (visits.filter (isCandidate rules)).map (·.path) ↔ IsCandidateDir fs rules root d := by
      intro d
      rw [← mem_candidateDirs_iff h.wellFormed hdirs, Path.sort, List.mem_mergeSort, List.mem_eraseDups]
    have hmem' : ∀ d, d ∈ (visits'.filter (isCandidate rules)).map (·.path) ↔ IsCandidateDir fs' rules root d := by
      intro d
      rw [← mem_candidateDirs_iff h.wellFormed' hdirs', Path.sort, List.mem_mergeSort, List.mem_eraseDups]
    rw [hdirs, hdirs', Path.sort_eq_of_perm (perm_eraseDups fun d => ?_) fun d hd => ?_]
    · rw [hmem, hmem']
      exact ⟨IsCandidateDir.relisted h, IsCandidateDir.relisted h.symm⟩
    · rw [List.mem_eraseDups, hmem] at hd
      obtain ⟨es, ⟨⟨n, names, -, -, -, rfl⟩, -⟩, -⟩ := hd
      exact hroot

/-- The discovery ends with the same result. -/
theorem discover_relisted (h : Relisted fs fs') (rules : Rules) (scanRoot : Path) :
    (discover fs rules scanRoot).outcome = (discover fs' rules scanRoot).outcome := by
  apply Logged.RelatedBy.outcome_eq
  rw [discover, discover, ← h.sameShape.resolve]
  refine Logged.RelatedBy.bind_of_eq rfl fun root hroot => ?_
  have hanchor : root.anchor = .root := by
    rw [FileSystem.resolve_eq_ok hroot]
    rfl
  have hclassify : classifyLogged fs rules root = classifyLogged fs' rules root := by
    funext d
    rw [classifyLogged, classifyLogged, classify_congr h.sameShape (congrFun h.text? _)]
  rw [candidateDirs_relisted h hanchor, hclassify]
  exact Logged.RelatedBy.refl _

/-- The roots of projects are paths from the root. -/
theorem anchor_of_mem_validRoots {scanRoot : Path} {found : Result} (hw : fs.WellFormed)
    (h : (discover fs rules scanRoot).outcome = .ok found) {project : Path} (hp : project ∈ found.validRoots) :
    project.anchor = .root := by
  obtain ⟨root, -, -, hroot, -⟩ := discover_eq_ok.1 h
  obtain ⟨es, ⟨n, names, -, -, -, rfl⟩, -⟩ := reaches_of_mem_validRoots hw hroot h hp
  rw [Path.below_anchor, FileSystem.resolve_eq_ok hroot]
  rfl

end Discovery

/-! ## Source files -/

theorem canLookUp_relisted (h : Relisted fs fs') {path : Path} : fs.CanLookUp path ↔ fs'.CanLookUp path := by
  have hiff : ∀ {fs : FileSystem}, fs.CanLookUp path ↔ ∃ b, fs.exists? path = .ok b := FileSystem.exists_leadsTo_iff.symm
  rw [hiff, hiff, h.sameShape.exists?]

namespace SourceFile

theorem IsFound.relisted (h : Relisted fs fs') {root : Path} {targets : List Path} {f : SourceFile}
    (hf : IsFound fs rules root targets f) : IsFound fs' rules root targets f := by
  obtain ⟨target, htarget, hdir, c, hc, hfile, hrel, path, hres, hin⟩ := hf
  rw [h.sameShape.isDir?] at hdir
  rw [h.sameShape.isFile?] at hfile
  rw [h.sameShape.resolve] at hres
  exact ⟨target, htarget, hdir, c, h.mem_descendants hc, hfile, hrel, path, hres, hin⟩

/-- A target directory is listed in both, or cannot be looked up in either. -/
theorem ofTarget_relisted (h : Relisted fs fs') {root target : Path} (targets : List Path)
    (hlist : ∀ c ∈ fs.descendants (root.join target), fs.CanLookUp c) :
    Logged.RelatedBy (fun _ _ => True) (ofTarget fs rules root targets target) (ofTarget fs' rules root targets target) := by
  rw [Logged.RelatedBy, outcome_ofTarget, outcome_ofTarget, ← h.sameShape.isDir?]
  cases fs.isDir? (root.join target) with
  | error e => exact Or.inl ⟨e, rfl, rfl⟩
  | ok isDir =>
    right
    cases isDir with
    | false => exact ⟨[], [], rfl, rfl, trivial⟩
    | true =>
      obtain ⟨found, hfound⟩ := Logged.exists_collect_iff.2 fun c hc =>
        exists_ofCandidate (hlist c hc) rules root targets
      obtain ⟨found', hfound'⟩ := Logged.exists_collect_iff.2 fun c (hc : c ∈ fs'.descendants (root.join target)) =>
        exists_ofCandidate ((canLookUp_relisted h).1 (hlist c (h.symm.mem_descendants hc))) rules root targets
      exact ⟨found, found', hfound, hfound', trivial⟩

/-- A scan finds the same source files in the same order. -/
theorem scan_relisted (h : Relisted fs fs') {project : Path} {targetDirs : List String}
    (hlist : ∀ root, fs.resolve project = .ok root → ∀ target ∈ targetDirs,
      ∀ c ∈ fs.descendants (root.join (Path.ofString target)), fs.CanLookUp c) :
    (scan fs rules project targetDirs).outcome = (scan fs' rules project targetDirs).outcome := by
  apply Logged.RelatedBy.outcome_eq
  rw [scan, scan, ← h.sameShape.resolve]
  refine Logged.RelatedBy.bind_of_eq rfl fun root hroot => ?_
  have hcollect : Logged.RelatedBy (fun _ _ => True)
      (Logged.collect (ofTarget fs rules root (targetDirs.map Path.ofString)) (targetDirs.map Path.ofString))
      (Logged.collect (ofTarget fs' rules root (targetDirs.map Path.ofString)) (targetDirs.map Path.ofString)) := by
    refine Logged.RelatedBy.collect trivial (fun _ _ => trivial) fun target htarget => ?_
    obtain ⟨name, hname, rfl⟩ := List.mem_map.1 htarget
    exact ofTarget_relisted h _ (hlist root hroot name hname)
  refine Logged.RelatedBy.bind hcollect fun found found' hfound hfound' _ => ?_
  have hmem : ∀ f, f ∈ found ↔ f ∈ found' := by
    intro f
    rw [mem_collect_ofTarget_iff hfound, mem_collect_ofTarget_iff hfound']
    exact ⟨IsFound.relisted h, IsFound.relisted h.symm⟩
  have hsort : sort found.eraseDups = sort found'.eraseDups := by
    refine sort_eq_of_perm (perm_eraseDups hmem) fun f hf g hg hloc => ?_
    rw [List.mem_eraseDups, mem_collect_ofTarget_iff hfound] at hf hg
    exact hf.eq_of_location h.wellFormed hg hloc
  rw [hsort]
  exact Logged.RelatedBy.refl _

end SourceFile

/-! ## Checks -/

namespace Check

/-- What lies below a directory in a project has a location in the project. -/
theorem exists_keyedLocation {project contracts path : Path} {keep : String → Bool}
    (hinside : contracts.relativeTo? project ≠ none) (hp : fs.ReachesFile keep contracts path) :
    ∃ keyed, keyedLocation project path = .ok keyed := by
  obtain ⟨r, hr⟩ := Option.ne_none_iff_exists'.1 hinside
  obtain ⟨-, hcontracts⟩ := Path.relativeTo?_eq_some hr
  obtain ⟨directory, es, name, n, ⟨⟨m, names, -, -, -, rfl⟩, -⟩, -, -, rfl⟩ := hp
  rw [keyedLocation, hcontracts, Path.below_below, Path.below_child, Path.below_relativeTo?]
  exact ⟨_, rfl⟩

/-- Keys and locations of the same files are the same up to their order, or end with the same failure. -/
theorem keyed_relisted {project : Path} {files files' : List Path} (hperm : files.Perm files')
    (h : (∀ p ∈ files, ∃ keyed, keyedLocation project p = .ok keyed) ∨ (files.filter isComparable).length ≤ 1) :
    Logged.RelatedBy List.Perm (Logged.ofExcept ((files.filter isComparable).mapM (keyedLocation project)))
      (Logged.ofExcept ((files'.filter isComparable).mapM (keyedLocation project))) := by
  have hfilter := hperm.filter isComparable
  rcases h with hall | hone
  · exact Or.inr (mapM_perm hfilter fun p hp => hall p (List.mem_filter.1 hp).1)
  · have hsame : files.filter isComparable = files'.filter isComparable := by
      cases hl : files.filter isComparable with
      | nil =>
        rw [hl] at hfilter
        exact hfilter.nil_eq
      | cons p rest =>
        rw [hl, List.length_cons] at hone
        obtain rfl : rest = [] := List.eq_nil_of_length_eq_zero (by omega)
        rw [hl] at hfilter
        exact List.singleton_perm.1 hfilter
    rw [hsame]
    exact Logged.RelatedBy.of_eq (fun l => List.Perm.refl l) rfl

/-- The diagnostics for a key do not depend on the order of the files. -/
theorem duplicatesOfKey_perm {keyed keyed' : List (String × String)} (h : keyed.Perm keyed') :
    duplicatesOfKey rules keyed = duplicatesOfKey rules keyed' := by
  funext key
  rw [duplicatesOfKey, duplicatesOfKey, sortTexts_eq_of_perm ((h.filter (·.1 = key)).map (·.2))]

/-- Contracts of the same name are found alike, as long as no order shows in a failure: the contracts lie in the project, or there
is at most one to compare. -/
theorem duplicateNames_relisted (h : Relisted fs fs') {project : Path}
    (hinside : (project.join (Path.ofString rules.contractsDir)).relativeTo? project ≠ none ∨
      ∀ files, projectFiles fs rules (project.join (Path.ofString rules.contractsDir)) = .ok files →
        (files.filter isComparable).length ≤ 1) :
    (duplicateNames fs rules project).outcome = (duplicateNames fs' rules project).outcome := by
  apply Logged.RelatedBy.outcome_eq
  rw [duplicateNames, duplicateNames, ← h.sameShape.isDir?]
  refine Logged.RelatedBy.bind_of_eq rfl fun isDir _ => ?_
  cases isDir with
  | false =>
    simp only [Bool.not_false, if_true]
    exact Logged.RelatedBy.refl _
  | true =>
    simp only [Bool.not_true, Bool.false_eq_true, if_false]
    refine Logged.RelatedBy.bind (Logged.RelatedBy.ofExcept (h.projectFiles rules _)) fun files files' hfiles _ hperm => ?_
    refine Logged.RelatedBy.bind (keyed_relisted hperm ?_) fun keyed keyed' _ _ hkeyed => ?_
    · refine hinside.imp (fun hin p hp => ?_) fun hone => hone files hfiles
      exact exists_keyedLocation hin ((Files.mem_projectFiles_iff h.wellFormed hfiles).1 hp)
    · have hkeys : sortTexts (keyed.map (·.1)).eraseDups = sortTexts (keyed'.map (·.1)).eraseDups :=
        sortTexts_eq_of_perm (perm_eraseDups fun key => (hkeyed.map (·.1)).mem_iff)
      rw [hkeys, duplicatesOfKey_perm hkeyed]
      exact Logged.RelatedBy.refl _

theorem wrapperNames_relisted (h : Relisted fs fs') (rules : Rules) (files : List SourceFile) :
    wrapperNames fs rules files = wrapperNames fs' rules files := by
  have hname : wrapperName fs rules = wrapperName fs' rules := by
    funext f
    rw [wrapperName, wrapperName, h.text?]
  rw [wrapperNames, wrapperNames, hname]

/-- The compile files of a project are the same in the same order. -/
theorem compileFilePaths_relisted (h : Relisted fs fs') {project : Path} (hproject : project.anchor = .root) :
    compileFilePaths fs rules project = compileFilePaths fs' rules project := by
  rw [compileFilePaths, compileFilePaths]
  obtain ⟨e, he, he'⟩ | ⟨files, files', hf, hf', hperm⟩ := h.projectFiles rules project
  · rw [he, he']
  · rw [hf, hf']
    refine congrArg Except.ok (Path.sort_eq_of_perm (hperm.filter _) fun p hp => ?_)
    obtain ⟨directory, es, name, n, ⟨⟨m, names, -, -, -, rfl⟩, -⟩, -, -, rfl⟩ :=
      (Files.mem_projectFiles_iff h.wellFormed hf).1 (List.mem_filter.1 hp).1
    exact hproject

theorem references_relisted (h : Relisted fs fs') {project : Path} (hproject : project.anchor = .root) :
    references fs rules project = references fs' rules project := by
  have hbuild : buildConfig fs rules project = buildConfig fs' rules project := by
    rw [buildConfig, buildConfig, h.sameShape.exists?, loadJson, loadJson, h.text?]
    simp only [missingDiagnostics_congr h.sameShape]
  have hcompile : compileFile fs project = compileFile fs' project := by
    funext path
    rw [compileFile, compileFile, h.text?]
    simp only [missingDiagnostics_congr h.sameShape]
  rw [references, references, hbuild, compileFiles, compileFiles, compileFilePaths_relisted h hproject, hcompile]

end Check

/-! ## Snapshots -/

namespace Snapshot

/-- What a snapshot of the directory at a path lists, down to a depth, can be looked up. -/
def CanShow (fs : FileSystem) (ignored : List String) : Nat → Path → Prop
  | 0, _ => True
  | depth + 1, path => ∀ name ∈ (fs.directoryAt path).entries.map (·.1), name ∉ ignored →
    fs.CanLookUp (path.child name) ∧
      (fs.isDir? (path.child name) = .ok true → CanShow fs ignored depth (path.child name))

/-- The names that are seen in a directory whose path can be listed: those of its entries that are not ignored, each with whether
it is or leads to a directory, in their order. -/
theorem visibleNames_eq_ok {ignored : List String} {path : Path} {names : List (String × Bool)} :
    visibleNames fs ignored path = .ok names ↔ '\x00' ∉ path.text.toList ∧ ∃ isDir : String → Bool,
      (∀ name ∈ (fs.directoryAt path).entries.map (·.1), name ∉ ignored → fs.isDir? (path.child name) = .ok (isDir name)) ∧
        names = ((((fs.directoryAt path).entries.map (·.1)).filter (· ∉ ignored)).map fun name =>
          (name, isDir name)).mergeSort le := by
  rw [visibleNames]
  by_cases hnul : '\x00' ∈ path.text.toList
  · rw [if_pos (by simpa using hnul)]
    exact ⟨fun h => (nomatch h), fun h => absurd hnul h.1⟩
  · rw [if_neg (by simpa using hnul)]
    dsimp only
    constructor
    · intro h
      cases hl : (((fs.directoryAt path).entries.map (·.1)).filter (· ∉ ignored)).mapM fun name =>
          (fs.isDir? (path.child name)).map fun isDir => (name, isDir) with
      | error e => rw [hl] at h; nomatch h
      | ok listed =>
        rw [hl] at h
        cases h
        obtain ⟨g, hg, rfl⟩ := mapM_eq_ok.1 hl
        have hdir : ∀ name ∈ ((fs.directoryAt path).entries.map (·.1)).filter (· ∉ ignored),
            fs.isDir? (path.child name) = .ok (g name).2 ∧ g name = (name, (g name).2) := by
          intro name hname
          have hn := hg name hname
          cases hd : fs.isDir? (path.child name) with
          | error e => rw [hd] at hn; nomatch hn
          | ok isDir =>
            rw [hd] at hn
            rw [← Except.ok.inj hn]
            exact ⟨rfl, rfl⟩
        refine ⟨hnul, fun name => (g name).2, fun name hentry hvisible => ?_, ?_⟩
        · exact (hdir name (List.mem_filter.2 ⟨hentry, by simpa using hvisible⟩)).1
        · exact congrArg (List.mergeSort · le) (List.map_congr_left fun name hname => (hdir name hname).2)
    · rintro ⟨-, isDir, hdir, rfl⟩
      have hl : (((fs.directoryAt path).entries.map (·.1)).filter (· ∉ ignored)).mapM (fun name =>
          (fs.isDir? (path.child name)).map fun isDir => (name, isDir)) = .ok _ :=
        mapM_eq_ok.2 ⟨fun name => (name, isDir name), fun name hname => by
          obtain ⟨hentry, hvisible⟩ := List.mem_filter.1 hname
          rw [hdir name hentry (by simpa using hvisible)]
          rfl, rfl⟩
      rw [hl]
      rfl

/-- The names that are seen in a directory are those of its entries that are not ignored, each with whether it is or leads to a
directory. -/
theorem mem_visibleNames_iff {ignored : List String} {path : Path} {names : List (String × Bool)}
    (h : visibleNames fs ignored path = .ok names) {name : String} {isDir : Bool} :
    (name, isDir) ∈ names ↔ name ∈ (fs.directoryAt path).entries.map (·.1) ∧ name ∉ ignored ∧
      fs.isDir? (path.child name) = .ok isDir := by
  obtain ⟨-, flag, hflag, rfl⟩ := visibleNames_eq_ok.1 h
  simp only [List.mem_mergeSort, List.mem_map, List.mem_filter, decide_not, Bool.not_eq_true', decide_eq_false_iff_not,
    Prod.mk.injEq]
  constructor
  · rintro ⟨_, ⟨hentry, hvisible⟩, rfl, rfl⟩
    exact ⟨hentry, hvisible, hflag _ (List.mem_map.2 hentry) hvisible⟩
  · rintro ⟨hentry, hvisible, hdir⟩
    rw [hflag name (List.mem_map.2 hentry) hvisible] at hdir
    exact ⟨name, ⟨hentry, hvisible⟩, rfl, Except.ok.inj hdir⟩

/-- The names that are seen in a directory are names of its entries that are not ignored. -/
theorem mem_visibleNames {ignored : List String} {path : Path} {names : List (String × Bool)}
    (h : visibleNames fs ignored path = .ok names) {shown : String × Bool} (hm : shown ∈ names) :
    shown.1 ∈ (fs.directoryAt path).entries.map (·.1) ∧ shown.1 ∉ ignored ∧
      fs.isDir? (path.child shown.1) = .ok shown.2 :=
  (mem_visibleNames_iff h).1 hm

/-- The names that are seen in a directory are the same in the same order. -/
theorem visibleNames_relisted (h : Relisted fs fs') {ignored : List String} {path : Path}
    (hlook : ∀ name ∈ (fs.directoryAt path).entries.map (·.1), name ∉ ignored → fs.CanLookUp (path.child name)) :
    visibleNames fs ignored path = visibleNames fs' ignored path := by
  rw [visibleNames, visibleNames]
  split
  · rfl
  · dsimp only
    rw [← h.sameShape.isDir?]
    obtain ⟨names, names', hnames, hnames', hperm⟩ := mapM_perm
      (f := fun name => (fs.isDir? (path.child name)).map fun isDir => (name, isDir))
      ((h.entryNames_perm path).filter (· ∉ ignored)) fun name hname => by
        obtain ⟨hentry, hignored⟩ := List.mem_filter.1 hname
        obtain ⟨b, hb⟩ : ∃ b, fs.isDir? (path.child name) = .ok b :=
          FileSystem.exists_leadsTo_iff.2 (hlook name hentry (by simpa using hignored))
        exact ⟨(name, b), by rw [hb]; rfl⟩
    rw [hnames, hnames']
    exact congrArg Except.ok (mergeSort_le_eq_of_perm hperm)

/-- What is seen below a directory, entry by entry. -/
theorem shownBelow_succ (fs : FileSystem) (ignored : List String) (depth : Nat) (path : Path) :
    shownBelow fs ignored (depth + 1) path = (visibleNames fs ignored path).bind fun names => names.mapM fun shown =>
      if shown.2 then (shownBelow fs ignored depth (path.child shown.1)).map (.entry shown.1 true ·)
      else .ok (.entry shown.1 false []) := by
  rw [shownBelow]
  rfl

/-- What is seen below a directory is the same. -/
theorem shownBelow_relisted (h : Relisted fs fs') (ignored : List String) (depth : Nat) : ∀ path : Path,
    CanShow fs ignored depth path → shownBelow fs ignored depth path = shownBelow fs' ignored depth path := by
  induction depth with
  | zero =>
    intro path _
    rw [shownBelow, shownBelow]
  | succ depth ih =>
    intro path hshow
    rw [shownBelow_succ, shownBelow_succ,
      ← visibleNames_relisted h fun name hentry hignored => (hshow name hentry hignored).1]
    cases hv : visibleNames fs ignored path with
    | error e => simp only [Except.bind]
    | ok names =>
      simp only [Except.bind]
      refine mapM_congr fun shown hm => ?_
      obtain ⟨hentry, hignored, hdir⟩ := mem_visibleNames hv hm
      cases hd : shown.2 with
      | false => simp only [Bool.false_eq_true, if_false]
      | true =>
        rw [hd] at hdir
        rw [if_pos rfl, if_pos rfl, ih _ ((hshow _ hentry hignored).2 hdir)]

end Snapshot

/-! ## Runs -/

/-- What the checks of a project list can be looked up: what lies below its target directories. -/
def CanScan (fs : FileSystem) (namingDirs : List String) (project : Path) : Prop :=
  ∀ root, fs.resolve project = .ok root → ∀ target ∈ namingDirs,
    ∀ c ∈ fs.descendants (root.join (Path.ofString target)), fs.CanLookUp c

/-- The contracts of a project lie in the project by the way their path is written, or there is at most one to compare. -/
def ContractsInside (fs : FileSystem) (rules : Rules) (project : Path) : Prop :=
  (project.join (Path.ofString rules.contractsDir)).relativeTo? project ≠ none ∨
    ∀ files, projectFiles fs rules (project.join (Path.ofString rules.contractsDir)) = .ok files →
      (files.filter Check.isComparable).length ≤ 1

/-- What is listed beside the scan root can be looked up, when a snapshot is drawn at all. -/
def CanDraw (fs : FileSystem) (rules : Rules) (root : Path) : Prop :=
  ∀ markers found, Files.namesBelow fs.exists? root.parent rules.markerItems = .ok markers → markers ≠ [] →
    Files.namesBelow fs.isDir? root.parent rules.forbiddenDirs = .ok found → found ≠ [] →
      Snapshot.CanShow fs rules.treeNoise rules.treeDepth root.parent

theorem Check.surroundings_relisted (h : Relisted fs fs') {root : Path} (hdraw : CanDraw fs rules root) :
    (surroundings fs rules root).outcome = (surroundings fs' rules root).outcome := by
  apply Logged.RelatedBy.outcome_eq
  rw [surroundings, surroundings, ← h.sameShape.exists?, ← h.sameShape.isDir?]
  by_cases hparent : root.parent = root
  · simp only [hparent, if_true]
    exact Logged.RelatedBy.refl _
  · simp only [hparent, if_false]
    refine Logged.RelatedBy.bind_of_eq rfl fun markers hmarkers => ?_
    by_cases hm : markers = []
    · simp only [hm, if_true]
      exact Logged.RelatedBy.refl _
    · simp only [hm, if_false]
      refine Logged.RelatedBy.bind_of_eq rfl fun found hfound => ?_
      by_cases hf : found = []
      · simp only [hf, if_true]
        exact Logged.RelatedBy.refl _
      · simp only [hf, if_false]
        have hshown := Snapshot.shownBelow_relisted h rules.treeNoise rules.treeDepth root.parent
          (hdraw markers found hmarkers hm hfound hf)
        rw [Snapshot.draw, Snapshot.draw, Snapshot.lines, Snapshot.lines, hshown]
        exact Logged.RelatedBy.refl _

/-- The checks of a project end alike. -/
theorem projectDiagnostics_relisted (h : Relisted fs fs') {namingDirs : List String} {project : Path}
    (hproject : project.anchor = .root) (hscan : CanScan fs namingDirs project) (hinside : ContractsInside fs rules project) :
    (projectDiagnostics fs rules namingDirs project).outcome = (projectDiagnostics fs' rules namingDirs project).outcome := by
  apply Logged.RelatedBy.outcome_eq
  rw [projectDiagnostics, projectDiagnostics, ← Check.references_relisted h hproject]
  refine Logged.RelatedBy.bind_of_eq (SourceFile.scan_relisted h hscan) fun files _ => ?_
  refine Logged.RelatedBy.bind_of_eq (Check.duplicateNames_relisted h hinside) fun duplicates _ => ?_
  rw [← Check.wrapperNames_relisted h]
  exact Logged.RelatedBy.refl _

/-- A run does not depend on the order in which directories are listed: candidates and diagnostics are the same in the same order,
as long as what is listed can be looked up and no contracts outside of their project are compared. -/
theorem lint_relisted {fs fs' : FileSystem} (h : Relisted fs fs') {rules : Rules} {namingDirs : List String} {scanRoot : Path}
    (hdraw : ∀ root, fs.resolve scanRoot = .ok root → CanDraw fs rules root)
    (hprojects : ∀ root found, fs.resolve scanRoot = .ok root → (Discovery.discover fs rules root).outcome = .ok found →
      ∀ project ∈ found.validRoots, CanScan fs namingDirs project ∧ ContractsInside fs rules project) :
    (lint fs rules namingDirs scanRoot).outcome = (lint fs' rules namingDirs scanRoot).outcome := by
  apply Logged.RelatedBy.outcome_eq
  rw [lint, lint, ← h.sameShape.resolve]
  refine Logged.RelatedBy.bind_of_eq rfl fun root hroot => ?_
  refine Logged.RelatedBy.bind_of_eq rfl fun _ _ => ?_
  refine Logged.RelatedBy.bind_of_eq (Check.surroundings_relisted h (hdraw root hroot)) fun beside _ => ?_
  refine Logged.RelatedBy.bind_of_eq (Discovery.discover_relisted h rules root) fun found hfound => ?_
  have hinside : (Logged.collect (checkProject fs rules namingDirs root) found.validRoots).outcome =
      (Logged.collect (checkProject fs' rules namingDirs root) found.validRoots).outcome := by
    refine Logged.outcome_collect_congr fun project hp => ?_
    obtain ⟨hscan, hcontracts⟩ := hprojects root found hroot hfound project hp
    rw [outcome_checkProject, outcome_checkProject, projectDiagnostics_relisted h
      (Discovery.anchor_of_mem_validRoots h.wellFormed hfound hp) hscan hcontracts]
  exact Logged.RelatedBy.bind_of_eq hinside fun inside _ => Logged.RelatedBy.refl _

namespace ListingOrder

/-- Two contracts. -/
def contracts : List (String × Node) := [("a.fc", .file []), ("b.fc", .file [])]

/-- A project that holds contracts. -/
def insideTree (es : List (String × Node)) : FileSystem := SampleTree.withProject [("contracts", .dir es)]

/-- A project, and contracts in a directory beside it. -/
def outsideTree (es : List (String × Node)) : FileSystem where
  entries := [("w", SampleTree.project []), ("shared", .dir es)]

/-- The rules that name the directory beside the project as the directory of contracts. -/
def outsideRules : Rules := { contractsDir := "/shared" }

theorem contracts_perm : contracts.Perm contracts.reverse := (List.reverse_perm contracts).symm

theorem relisted_insideTree : Relisted (insideTree contracts) (insideTree contracts.reverse) :=
  Files.relisted_putAt (p := ["w", "contracts"]) (by decide) (by decide) rfl contracts_perm

theorem relisted_outsideTree : Relisted (outsideTree contracts) (outsideTree contracts.reverse) :=
  Files.relisted_putAt (p := ["shared"]) (by decide) (by decide) rfl contracts_perm

end ListingOrder

set_option maxRecDepth 4000 in
/-- The contracts of a project may be listed in either order. -/
theorem lint_relisted_contracts :
    (lint (ListingOrder.insideTree ListingOrder.contracts) {} ["contracts"] (.absolute [])).outcome =
      (lint (ListingOrder.insideTree ListingOrder.contracts.reverse) {} ["contracts"] (.absolute [])).outcome := by
  have hroot : (ListingOrder.insideTree ListingOrder.contracts).resolve (.absolute []) = .ok (.absolute []) :=
    FileSystem.resolve_of_route (r := ⟨[], _⟩) rfl (by decide)
  have hproject : (ListingOrder.insideTree ListingOrder.contracts).resolve (.absolute ["w"]) = .ok (.absolute ["w"]) :=
    FileSystem.resolve_of_route (FileSystem.route_of_at? (SampleTree.at?_project _)
      (by simp [Path.absolute, IsStep]; decide) rfl) (by decide)
  have hfound : ((Discovery.discover (ListingOrder.insideTree ListingOrder.contracts) {}
      (.absolute [])).outcome.toOption.map (·.validRoots)) = some [.absolute ["w"]] := by decide +kernel
  have hlist : (((ListingOrder.insideTree ListingOrder.contracts).descendants (.absolute ["w", "contracts"])).all fun c =>
      ((ListingOrder.insideTree ListingOrder.contracts).exists? c).toOption.isSome) = true := by decide +kernel
  refine lint_relisted ListingOrder.relisted_insideTree (fun root hr => ?_) fun root found hr hf project hp => ?_
  · rw [hroot] at hr
    cases hr
    have hnone : Files.namesBelow (ListingOrder.insideTree ListingOrder.contracts).exists? (Path.absolute []).parent
        ({} : Rules).markerItems = .ok [] := by decide +kernel
    intro markers found hm hne
    rw [hnone] at hm
    cases hm
    exact absurd rfl hne
  · rw [hroot] at hr
    cases hr
    rw [hf] at hfound
    have hroots : found.validRoots = [.absolute ["w"]] := Option.some.inj hfound
    rw [hroots, List.mem_singleton] at hp
    subst hp
    constructor
    · intro root hr target htarget c hc
      rw [hproject] at hr
      cases hr
      rw [List.mem_singleton.1 htarget] at hc
      have hexists := List.all_eq_true.1 hlist c hc
      cases he : (ListingOrder.insideTree ListingOrder.contracts).exists? c with
      | error e =>
        rw [he] at hexists
        nomatch hexists
      | ok there => exact FileSystem.exists_leadsTo_iff.1 ⟨there, he⟩
    · exact Or.inl (by decide +kernel)

set_option maxRecDepth 4000 in
/-- The order shows when two contracts outside of their project are compared: the failure that ends the checks names the first. -/
theorem lint_shows_order :
    Relisted (ListingOrder.outsideTree ListingOrder.contracts) (ListingOrder.outsideTree ListingOrder.contracts.reverse) ∧
      CanDraw (ListingOrder.outsideTree ListingOrder.contracts) ListingOrder.outsideRules (.absolute ["w"]) ∧
      (∀ project, CanScan (ListingOrder.outsideTree ListingOrder.contracts) [] project) ∧
      ∃ report report' : LintReport,
        (lint (ListingOrder.outsideTree ListingOrder.contracts) ListingOrder.outsideRules [] (.absolute ["w"])).outcome =
          .ok report ∧
        (lint (ListingOrder.outsideTree ListingOrder.contracts.reverse) ListingOrder.outsideRules []
          (.absolute ["w"])).outcome = .ok report' ∧
        report.diagnostics ≠ report'.diagnostics := by
  have hdiffer : ((lint (ListingOrder.outsideTree ListingOrder.contracts) ListingOrder.outsideRules []
      (.absolute ["w"])).outcome.toOption.bind fun report =>
        (lint (ListingOrder.outsideTree ListingOrder.contracts.reverse) ListingOrder.outsideRules []
          (.absolute ["w"])).outcome.toOption.map fun report' =>
            decide (report.diagnostics ≠ report'.diagnostics)) = some true := by decide +kernel
  refine ⟨ListingOrder.relisted_outsideTree, fun markers found hm hne => ?_, fun _ _ _ target htarget => ?_, ?_⟩
  · have hnone : Files.namesBelow (ListingOrder.outsideTree ListingOrder.contracts).exists? (Path.absolute ["w"]).parent
        ListingOrder.outsideRules.markerItems = .ok [] := by decide +kernel
    rw [hnone] at hm
    cases hm
    exact absurd rfl hne
  · nomatch htarget
  · obtain ⟨report, hr, hdiffer⟩ := Option.bind_eq_some_iff.1 hdiffer
    obtain ⟨report', hr', hne⟩ := Option.map_eq_some_iff.1 hdiffer
    have hok : ∀ {x : Except Failure LintReport} {r}, x.toOption = some r → x = .ok r := by
      intro x r hx
      cases x with
      | error e => nomatch hx
      | ok a => rw [Option.some.inj hx]
    exact ⟨report, report', hok hr, hok hr', of_decide_eq_true hne⟩

end WorkspaceLint
