import WorkspaceLint.Proofs.Files.Reach
import WorkspaceLint.Proofs.Outcome
import WorkspaceLint.SourceScan

/-!
# What a scan finds

The outcomes of the steps of a scan. What is found stands in the tree at its own path, below the canonical project
(`of_mem_scan`), and a file that lies below a target directory along directories only cannot be missed (`mem_scan_of_route`): its
canonical path goes on from the place of that directory as the walk does.
-/

namespace WorkspaceLint

open Files (FileSystem Node Found IsStep IsEntryName)

namespace SourceFile

/-! ## What a path stands for -/

/-- The source files that a canonical path stands for in a project: one or none. -/
def inProject (rules : Rules) (root : Path) (targets : List Path) (path : Path) : List SourceFile :=
  match path.relativeTo? root with
  | some location => (ofLocation? rules targets path location).toList
  | none => []

theorem outcome_ofCandidate (fs : FileSystem) (rules : Rules) (root : Path) (targets : List Path) (candidate : Path) :
    (ofCandidate fs rules root targets candidate).outcome =
      (fs.isFile? candidate).bind fun isFile =>
        if isFile && isRelevantName rules candidate.name then (fs.resolve candidate).map (inProject rules root targets)
        else .ok [] := by
  rw [ofCandidate, Logged.outcome_bind, Logged.outcome_ofExcept]
  congr 1
  funext isFile
  cases isFile with
  | false => rfl
  | true =>
    cases hrel : isRelevantName rules candidate.name with
    | false => simp
    | true =>
      simp only [Bool.not_true, Bool.false_eq_true, if_false, Bool.and_self, if_true, Logged.outcome_bind,
        Logged.outcome_ofExcept]
      cases fs.resolve candidate with
      | error e => rfl
      | ok path =>
        simp only [Except.bind, Except.map, inProject]
        cases path.relativeTo? root with
        | none => rfl
        | some location => rfl

theorem outcome_ofTarget (fs : FileSystem) (rules : Rules) (root : Path) (targets : List Path) (target : Path) :
    (ofTarget fs rules root targets target).outcome =
      (fs.isDir? (root.join target)).bind fun isDir =>
        if isDir then (Logged.collect (ofCandidate fs rules root targets) (fs.descendants (root.join target))).outcome
        else .ok [] := by
  rw [ofTarget, Logged.outcome_bind, Logged.outcome_ofExcept]
  congr 1
  funext isDir
  cases isDir <;> rfl

theorem scan_eq_ok {fs : FileSystem} {rules : Rules} {project : Path} {targetDirs : List String} {files : List SourceFile} :
    (scan fs rules project targetDirs).outcome = .ok files ↔
      ∃ root found, fs.resolve project = .ok root ∧
        (Logged.collect (ofTarget fs rules root (targetDirs.map Path.ofString)) (targetDirs.map Path.ofString)).outcome =
          .ok found ∧
        files = sort found.eraseDups := by
  simp only [scan, Logged.bind_eq_ok, Logged.outcome_ofExcept, Logged.outcome_log, Logged.pure_eq_ok, Logged.outcome_ok,
    Except.ok.injEq]
  constructor
  · rintro ⟨root, hroot, found, hfound, -, -, rfl⟩
    exact ⟨root, found, hroot, hfound, rfl⟩
  · rintro ⟨root, found, hroot, hfound, rfl⟩
    exact ⟨root, hroot, found, hfound, (), trivial, rfl⟩

theorem mem_sort_eraseDups {files : List SourceFile} {f : SourceFile} : f ∈ sort files.eraseDups ↔ f ∈ files := by
  rw [sort, List.mem_mergeSort, List.mem_eraseDups]

/-- A canonical path stands for a source file when it lies in the project, not in the dependency cache, and the first target that
it lies in says what it is for. -/
theorem mem_inProject_iff {rules : Rules} {root : Path} {targets : List Path} {path : Path} {f : SourceFile} :
    f ∈ inProject rules root targets path ↔
      ∃ location, path.relativeTo? root = some location ∧ rules.dependencyCacheDir ∉ location.parts ∧
        ∃ target, targetOf? targets location = some target ∧ classify? rules path location target = some f := by
  rw [inProject]
  cases hl : path.relativeTo? root with
  | none => simp
  | some location =>
    dsimp only
    rw [Option.mem_toList, ofLocation?]
    by_cases hcache : rules.dependencyCacheDir ∈ location.parts
    · rw [if_pos hcache]
      simp [hcache]
    · rw [if_neg hcache, Option.bind_eq_some_iff]
      simp [hcache]

/-- What a canonical path stands for has that path, and its location leads there from the root. -/
theorem of_mem_inProject {rules : Rules} {root : Path} {targets : List Path} {path : Path} {f : SourceFile}
    (h : f ∈ inProject rules root targets path) : f.path = path ∧ path.relativeTo? root = some f.location := by
  obtain ⟨location, hl, -, target, -, hc⟩ := mem_inProject_iff.1 h
  obtain ⟨-, -, rfl⟩ := Option.map_eq_some_iff.1 hc
  exact ⟨rfl, hl⟩

/-- What a canonical path stands for lies in no dependency cache of the project. -/
theorem dependencyCacheDir_not_mem_location {rules : Rules} {root : Path} {targets : List Path} {path : Path} {f : SourceFile}
    (h : f ∈ inProject rules root targets path) : rules.dependencyCacheDir ∉ f.location.parts := by
  obtain ⟨location, hl, hcache, -⟩ := mem_inProject_iff.1 h
  rw [(of_mem_inProject h).2] at hl
  cases hl
  exact hcache

/-- What a canonical path stands for lies in one of the targets. -/
theorem exists_target_of_mem_inProject {rules : Rules} {root : Path} {targets : List Path} {path : Path} {f : SourceFile}
    (h : f ∈ inProject rules root targets path) :
    ∃ target ∈ targets, target.anchor = .relative ∧ target.parts <+: f.location.parent.parts := by
  obtain ⟨location, hl, -, target, ht, -⟩ := mem_inProject_iff.1 h
  rw [(of_mem_inProject h).2] at hl
  cases hl
  rw [targetOf?] at ht
  have hin := List.find?_some ht
  obtain ⟨hrelative, hprefix⟩ := of_decide_eq_true hin
  exact ⟨target, List.mem_of_find?_eq_some ht, hrelative, List.isPrefixOf_iff_prefix.1 hprefix⟩

/-! ## Candidates of a scan -/

/-- What is found for a candidate is what its canonical path stands for, when it leads to a file of a relevant name. -/
theorem mem_ofCandidate_iff {fs : FileSystem} {rules : Rules} {root : Path} {targets : List Path} {candidate : Path}
    {found : List SourceFile} (h : (ofCandidate fs rules root targets candidate).outcome = .ok found) {f : SourceFile} :
    f ∈ found ↔ fs.isFile? candidate = .ok true ∧ isRelevantName rules candidate.name = true ∧
      ∃ path, fs.resolve candidate = .ok path ∧ f ∈ inProject rules root targets path := by
  rw [outcome_ofCandidate] at h
  cases hb : fs.isFile? candidate with
  | error e => rw [hb] at h; nomatch h
  | ok b =>
    rw [hb] at h
    simp only [Except.bind] at h
    split at h
    · rename_i hcond
      obtain ⟨rfl, hrel⟩ := Bool.and_eq_true_iff.1 hcond
      cases hres : fs.resolve candidate with
      | error e => rw [hres] at h; nomatch h
      | ok path =>
        rw [hres] at h
        cases h
        simp [hrel]
    · rename_i hcond
      cases h
      cases b <;> simp_all

/-- A candidate that can be looked up fails in no other way. -/
theorem exists_ofCandidate {fs : FileSystem} {candidate : Path} (h : fs.CanLookUp candidate) (rules : Rules) (root : Path)
    (targets : List Path) : ∃ found, (ofCandidate fs rules root targets candidate).outcome = .ok found := by
  obtain ⟨b, hb⟩ : ∃ b, fs.isFile? candidate = .ok b := FileSystem.exists_leadsTo_iff.2 h
  rw [outcome_ofCandidate, hb]
  simp only [Except.bind]
  split
  · rename_i hcond
    obtain ⟨rfl, -⟩ := Bool.and_eq_true_iff.1 hcond
    obtain ⟨hnul, content, hstat⟩ := FileSystem.isFile?_eq_true.1 hb
    obtain ⟨-, q, hr⟩ := FileSystem.stat?_eq_ok.1 hstat
    rw [FileSystem.resolve_of_route hr hnul]
    exact ⟨_, rfl⟩
  · exact ⟨_, rfl⟩

/-- A candidate for which a scan goes on was looked up. -/
theorem canLookUp_of_ofCandidate {fs : FileSystem} {rules : Rules} {root : Path} {targets : List Path} {candidate : Path}
    {found : List SourceFile} (h : (ofCandidate fs rules root targets candidate).outcome = .ok found) :
    fs.CanLookUp candidate := by
  rw [outcome_ofCandidate] at h
  cases hb : fs.isFile? candidate with
  | error e => rw [hb] at h; nomatch h
  | ok b => exact FileSystem.exists_leadsTo_iff.1 ⟨b, hb⟩

/-- What is listed below a target directory was looked up. -/
theorem canLookUp_of_mem_descendants {fs : FileSystem} {rules : Rules} {root : Path} {targets : List Path}
    {found : List SourceFile} (h : (Logged.collect (ofTarget fs rules root targets) targets).outcome = .ok found)
    {target : Path} (htarget : target ∈ targets) (hdir : fs.isDir? (root.join target) = .ok true) {c : Path}
    (hc : c ∈ fs.descendants (root.join target)) : fs.CanLookUp c := by
  obtain ⟨g, hg, -⟩ := Logged.collect_eq_ok.1 h
  have ht := hg target htarget
  rw [outcome_ofTarget, hdir] at ht
  obtain ⟨g', hg', -⟩ := Logged.collect_eq_ok.1 ht
  exact canLookUp_of_ofCandidate (hg' c hc)

/-! ## What is found below targets -/

/-- A source file that a path of the listing of a target directory leads to. -/
def IsFound (fs : FileSystem) (rules : Rules) (root : Path) (targets : List Path) (f : SourceFile) : Prop :=
  ∃ target ∈ targets, fs.isDir? (root.join target) = .ok true ∧ ∃ c ∈ fs.descendants (root.join target),
    fs.isFile? c = .ok true ∧ isRelevantName rules c.name = true ∧
      ∃ path, fs.resolve c = .ok path ∧ f ∈ inProject rules root targets path

/-- What is found below target directories is what the paths of their listings lead to. -/
theorem mem_collect_ofTarget_iff {fs : FileSystem} {rules : Rules} {root : Path} {targets : List Path}
    {found : List SourceFile} (h : (Logged.collect (ofTarget fs rules root targets) targets).outcome = .ok found)
    {f : SourceFile} : f ∈ found ↔ IsFound fs rules root targets f := by
  obtain ⟨g, hg, rfl⟩ := Logged.collect_eq_ok.1 h
  rw [List.mem_flatMap]
  refine exists_congr fun target => and_congr_right fun htarget => ?_
  have ht := hg target htarget
  rw [outcome_ofTarget] at ht
  cases hb : fs.isDir? (root.join target) with
  | error e => rw [hb] at ht; nomatch ht
  | ok b =>
    rw [hb] at ht
    cases b with
    | false =>
      simp only [Except.bind, Bool.false_eq_true, if_false, Except.ok.injEq] at ht
      simp [← ht]
    | true =>
      simp only [Except.bind, if_true] at ht
      obtain ⟨g', hg', he⟩ := Logged.collect_eq_ok.1 ht
      rw [he, List.mem_flatMap]
      simp only [true_and]
      exact exists_congr fun c => and_congr_right fun hc => mem_ofCandidate_iff (hg' c hc)

/-- What is found is a file that stands at its own path, its location leads there from the root, and it is what its path stands
for. -/
theorem IsFound.exists_at? {fs : FileSystem} {rules : Rules} {root : Path} {targets : List Path} {f : SourceFile}
    (h : IsFound fs rules root targets f) :
    f ∈ inProject rules root targets f.path ∧ ∃ position content, f.path = .absolute position ∧
      fs.at? position = some (.file content) ∧ f.path.relativeTo? root = some f.location := by
  obtain ⟨target, -, -, c, -, hfile, -, path, hres, hf⟩ := h
  obtain ⟨-, content, hstat⟩ := FileSystem.isFile?_eq_true.1 hfile
  obtain ⟨-, q, hr⟩ := FileSystem.stat?_eq_ok.1 hstat
  obtain ⟨hp, hl⟩ := of_mem_inProject hf
  refine ⟨hp ▸ hf, q, content, ?_, (FileSystem.route_spec hr).1, hp ▸ hl⟩
  rw [hp, FileSystem.resolve_eq_ok hres, FileSystem.canonicalPosition_of_route hr]

/-- What is found is known by its location. -/
theorem IsFound.eq_of_location {fs : FileSystem} (hw : fs.WellFormed) {rules : Rules} {root : Path} {targets : List Path}
    {f g : SourceFile} (hf : IsFound fs rules root targets f) (hg : IsFound fs rules root targets g)
    (h : f.location.text = g.location.text) : f = g := by
  have hback : ∀ {f : SourceFile}, IsFound fs rules root targets f → root.join (Path.ofString f.location.text) = f.path := by
    intro f hf
    obtain ⟨-, position, content, hp, hat, hl⟩ := hf.exists_at?
    have hseen : relativeLocation f.path root = f.location.text := by rw [relativeLocation, hl]
    rw [← hseen, hp]
    exact join_relativeLocation (by exact nofun) fun x hx => ((Node.WellFormed.below hw hat).2 x hx).isPart
  have hpath : f.path = g.path := by rw [← hback hf, h, hback hg]
  have hinf := hf.exists_at?.1
  have hing := hg.exists_at?.1
  rw [← hpath] at hing
  rw [inProject] at hinf hing
  split at hinf
  · rename_i location hl
    rw [hl] at hing
    rw [Option.mem_toList] at hinf hing
    exact Option.some.inj (hinf.symm.trans hing)
  · nomatch hinf

/-! ## What a scan returns -/

/-- What a scan finds is a file that stands at its own path, and its location leads there from the canonical project. -/
theorem of_mem_scan {fs : FileSystem} {rules : Rules} {project : Path} {targetDirs : List String} {files : List SourceFile}
    (h : (scan fs rules project targetDirs).outcome = .ok files) {f : SourceFile} (hf : f ∈ files) :
    ∃ root position content, fs.resolve project = .ok root ∧ f.path = .absolute position ∧
      fs.at? position = some (.file content) ∧ f.path.relativeTo? root = some f.location := by
  obtain ⟨root, found, hroot, hfound, rfl⟩ := scan_eq_ok.1 h
  rw [mem_sort_eraseDups, mem_collect_ofTarget_iff hfound] at hf
  obtain ⟨-, position, content, hp, hat, hl⟩ := hf.exists_at?
  exact ⟨root, position, content, hroot, hp, hat, hl⟩

/-- What a scan finds is known by its location. -/
theorem eq_of_location_of_mem_scan {fs : FileSystem} (hw : fs.WellFormed) {rules : Rules} {project : Path}
    {targetDirs : List String} {files : List SourceFile} (h : (scan fs rules project targetDirs).outcome = .ok files)
    {f g : SourceFile} (hf : f ∈ files) (hg : g ∈ files) (hlocation : f.location.text = g.location.text) : f = g := by
  obtain ⟨root, found, -, hfound, rfl⟩ := scan_eq_ok.1 h
  rw [mem_sort_eraseDups, mem_collect_ofTarget_iff hfound] at hf hg
  exact hf.eq_of_location hw hg hlocation

/-- What a scan finds lies below one of its target directories. -/
theorem exists_target_of_mem_scan {fs : FileSystem} {rules : Rules} {project : Path} {targetDirs : List String}
    {files : List SourceFile} (h : (scan fs rules project targetDirs).outcome = .ok files) {f : SourceFile} (hf : f ∈ files) :
    ∃ target ∈ targetDirs, (Path.ofString target).anchor = .relative ∧
      (Path.ofString target).parts <+: f.location.parent.parts := by
  obtain ⟨root, found, -, hfound, rfl⟩ := scan_eq_ok.1 h
  rw [mem_sort_eraseDups, mem_collect_ofTarget_iff hfound] at hf
  obtain ⟨_, htarget, hrelative, hprefix⟩ := exists_target_of_mem_inProject hf.exists_at?.1
  obtain ⟨target, hmem, rfl⟩ := List.mem_map.1 htarget
  exact ⟨target, hmem, hrelative, hprefix⟩

/-- What a scan finds lies in no dependency cache of the project. -/
theorem dependencyCacheDir_not_mem_of_mem_scan {fs : FileSystem} {rules : Rules} {project : Path} {targetDirs : List String}
    {files : List SourceFile} (h : (scan fs rules project targetDirs).outcome = .ok files) {f : SourceFile} (hf : f ∈ files) :
    rules.dependencyCacheDir ∉ f.location.parts := by
  obtain ⟨root, found, -, hfound, rfl⟩ := scan_eq_ok.1 h
  rw [mem_sort_eraseDups, mem_collect_ofTarget_iff hfound] at hf
  exact dependencyCacheDir_not_mem_location hf.exists_at?.1

/-- Whether a target of a scan that goes on is a directory was looked up. -/
theorem exists_isDir?_of_mem_targets {fs : FileSystem} {rules : Rules} {root : Path} {targets : List Path}
    {found : List SourceFile} (h : (Logged.collect (ofTarget fs rules root targets) targets).outcome = .ok found)
    {target : Path} (htarget : target ∈ targets) : ∃ b, fs.isDir? (root.join target) = .ok b := by
  obtain ⟨g, hg, -⟩ := Logged.collect_eq_ok.1 h
  have ht := hg target htarget
  rw [outcome_ofTarget] at ht
  cases hb : fs.isDir? (root.join target) with
  | error e => rw [hb] at ht; nomatch ht
  | ok b => exact ⟨b, rfl⟩

/-- A file below a target directory of a project, along directories only, is scanned: what the place stands for where it is found
is among the source files. The path of the target directory may lead over links. -/
theorem mem_scan_of_route {fs : FileSystem} (hw : fs.WellFormed) {rules : Rules} {project root : Path}
    {targetDirs : List String} {files : List SourceFile} (h : (scan fs rules project targetDirs).outcome = .ok files)
    (hroot : fs.resolve project = .ok root) {target : String} (htarget : target ∈ targetDirs) {r : Found}
    (hr : fs.route (root.join (Path.ofString target)) = .ok r) {names : List String} {content : List UInt8} (hne : names ≠ [])
    (hat : r.node.at? names = some (.file content)) (hrel : isRelevantName rules (names.getLastD "") = true) {f : SourceFile}
    (hf : f ∈ inProject rules root (targetDirs.map Path.ofString) (.absolute (r.position ++ names))) : f ∈ files := by
  obtain ⟨root', found, hroot', hfound, rfl⟩ := scan_eq_ok.1 h
  obtain rfl : root = root' := Except.ok.inj (hroot.symm.trans hroot')
  have htm : Path.ofString target ∈ targetDirs.map Path.ofString := List.mem_map_of_mem htarget
  have hnul : '\x00' ∉ (root.join (Path.ofString target)).text.toList := FileSystem.nul_not_mem_of_route hw hr
  obtain ⟨es, hes⟩ : ∃ es, r.node = .dir es := by
    obtain ⟨name, rest, rfl⟩ := List.exists_cons_of_ne_nil hne
    obtain ⟨es, -, hes, -, -⟩ := Node.eq_dir_of_at?_cons hat
    exact ⟨es, hes⟩
  obtain ⟨hdir, hn⟩ : fs.isDir? (root.join (Path.ofString target)) = .ok true ∧
      fs.stat? (root.join (Path.ofString target)) = .ok (.dir es) := by
    obtain ⟨b, hb⟩ := exists_isDir?_of_mem_targets hfound htm
    obtain ⟨rfl, hstat⟩ := FileSystem.leadsTo_of_route hr hnul hb
    rw [hes] at hb hstat
    exact ⟨hb, hstat⟩
  have hlisted : (root.join (Path.ofString target)).below names ∈ fs.descendants (root.join (Path.ofString target)) := by
    rw [FileSystem.descendants, FileSystem.directoryAt_of_stat? hn, Node.mem_descendants_iff (hw.stat? hn), ← hes]
    exact ⟨names, .file content, hne, hat, rfl⟩
  have hnames : ∀ x ∈ names, IsEntryName x := (Node.WellFormed.below (hw.route hr).1 hat).2
  have hbelow := FileSystem.route_below hr (fun x hx => (hnames x hx).isStep) hat rfl
  have hfree : '\x00' ∉ ((root.join (Path.ofString target)).below names).text.toList := FileSystem.nul_not_mem_of_route hw hbelow
  have hfile : fs.isFile? ((root.join (Path.ofString target)).below names) = .ok true := by
    obtain ⟨b, hb⟩ := FileSystem.exists_leadsTo_iff.2 (canLookUp_of_mem_descendants hfound htm hdir hlisted)
    obtain ⟨rfl, -⟩ := FileSystem.leadsTo_of_route hbelow hfree hb
    exact hb
  rw [mem_sort_eraseDups, mem_collect_ofTarget_iff hfound]
  refine ⟨_, htm, hdir, _, hlisted, hfile, ?_, _, FileSystem.resolve_of_route hbelow hfree, hf⟩
  rwa [Path.below_name _ hne]

end SourceFile

end WorkspaceLint
