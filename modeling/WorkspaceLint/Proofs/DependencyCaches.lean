import WorkspaceLint.Proofs.Files.Caches
import WorkspaceLint.Proofs.ListingOrder

/-!
# What lies in dependency caches

Two trees without links that differ only in what lies in their dependency caches have the same report (`lint_sameOutsideCaches`), as
long as they agree on the installed modules, no file declares a path into a cache, and nothing in a cache below a target directory
has a path that is too long to be looked up (`CachesFit`): such a path ends the checks of its project.
-/

namespace WorkspaceLint

open Files (FileSystem Node IsEntryName IsStep SameOutsideCaches OutsideCaches)

namespace DependencyCaches

/-- The name of the directory that installed dependencies lie in. -/
def cacheName : String := ({} : Rules).dependencyCacheDir

/-- A directory that stands below the scan root and in no cache. -/
structure IsVisible (fs : FileSystem) (q : List String) (directory : Path) (names : List String) : Prop where
  /-- The path of the directory. -/
  path : directory = .absolute (q ++ names)
  /-- The directory stands there. -/
  stands : ∃ es, fs.at? (q ++ names) = some (.dir es)
  /-- No cache is on the way from the scan root. -/
  outside : cacheName ∉ names

variable {fs fs' : FileSystem} {q names rest : List String} {es : List (String × Node)} {d : Path}

namespace IsVisible

theorem outsideCaches (h : IsVisible fs q d names) : OutsideCaches cacheName q d :=
  ⟨q, names, List.prefix_rfl, by rw [h.path]; rfl, h.outside⟩

/-- What lies below a visible directory, along names other than that of caches, is outside of caches. -/
theorem outsideCaches_below (h : IsVisible fs q d names) (hrest : cacheName ∉ rest) : OutsideCaches cacheName q (d.below rest) := by
  refine ⟨q, names ++ rest, List.prefix_rfl, ?_, ?_⟩
  · rw [Path.below_parts, h.path, Path.absolute, List.append_assoc]
  · rw [List.mem_append, not_or]
    exact ⟨h.outside, hrest⟩

/-- A path without caches, seen from a visible directory, is outside of caches, wherever it starts. -/
theorem outsideCaches_join (h : IsVisible fs q d names) {p : Path} (hp : cacheName ∉ p.parts) :
    OutsideCaches cacheName q (d.join p) := by
  by_cases hr : p.anchor = .relative
  · rw [Path.join_relative hr]
    exact h.outsideCaches_below hp
  · rw [Path.join_anchored hr]
    exact ⟨[], p.parts, List.nil_prefix, rfl, hp⟩

theorem isEntryName (h : IsVisible fs q d names) (hw : fs.WellFormed) : ∀ x ∈ q ++ names, IsEntryName x := by
  obtain ⟨es, hes⟩ := h.stands
  exact (Node.WellFormed.below hw hes).2

/-- A visible directory is where its path leads, and its path is canonical. -/
theorem resolve (h : IsVisible fs q d names) (hw : fs.WellFormed) : fs.resolve d = .ok d := by
  obtain ⟨es, hes⟩ := h.stands
  rw [h.path]
  exact hw.resolve_absolute hes rfl

theorem scanRoot (hq : fs.at? q = some (.dir es)) : IsVisible fs q (.absolute q) [] where
  path := by rw [List.append_nil]
  stands := ⟨es, by rw [List.append_nil]; exact hq⟩
  outside := List.not_mem_nil

/-- A directory that is visible in one of two trees is visible in both. -/
theorem transfer (h : IsVisible fs q d names) (hsame : SameOutsideCaches cacheName q fs fs') : IsVisible fs' q d names := by
  obtain ⟨es, hes⟩ := h.stands
  have hout : ¬Files.InCache cacheName q (q ++ names) := by
    rintro ⟨names', he, hmem⟩
    exact h.outside (List.append_cancel_left he ▸ hmem)
  obtain ⟨es', hes', -⟩ := hsame.dir hout hes
  exact ⟨h.path, ⟨es', hes'⟩, h.outside⟩

/-- A directory that the walk reaches from a visible directory is visible. -/
theorem reaches (h : IsVisible fs q d names) (hw : fs.WellFormed) {directory : Path} {entries : List (String × Node)}
    (hr : fs.Reaches ({} : Rules).enters d directory entries) :
    ∃ more, IsVisible fs q directory (names ++ more) ∧ directory = d.below more := by
  obtain ⟨es, hes⟩ := h.stands
  obtain ⟨⟨n, more, hn, hat, hkeep, rfl⟩, -⟩ := hr
  obtain ⟨-, p, hroute⟩ := FileSystem.stat?_eq_ok.1 hn
  rw [h.path, hw.route_absolute hes rfl] at hroute
  cases hroute
  have hmore : cacheName ∉ more := by
    intro hmem
    have := hkeep _ hmem
    revert this
    decide
  refine ⟨more, ⟨?_, ⟨entries, ?_⟩, ?_⟩, rfl⟩
  · rw [h.path, ← List.append_assoc]
    rfl
  · rw [← List.append_assoc, FileSystem.at?_append, hes]
    exact hat
  · rw [List.mem_append, not_or]
    exact ⟨h.outside, hmore⟩

end IsVisible

/-! ## Look-ups -/

section SameReport

variable (h : SameOutsideCaches cacheName q fs fs') (hq : fs.at? q = some (.dir es))

include h hq

/-- What is looked up in a directory outside of caches is the same in both. -/
theorem stat?_join (ho : OutsideCaches cacheName q d) {name : String} (hname : IsEntryName name) :
    (fs.stat? (d.join (Path.ofString name))).map Node.bare = (fs'.stat? (d.join (Path.ofString name))).map Node.bare := by
  rw [Path.join_ofString_part hname.isPart]
  exact h.stat?_child hq ho name

/-- A walk below a visible directory visits the same in both. -/
theorem walkFrom_below (hv : IsVisible fs q d names) (rest : List String) (hnames : ∀ x ∈ rest, IsEntryName x) (hrest : cacheName ∉ rest) :
    fs.walkFrom ({} : Rules).enters (d.below rest) = fs'.walkFrom ({} : Rules).enters (d.below rest) := by
  have hs : ∀ x ∈ q ++ (names ++ rest), IsStep x := by
    intro x hx
    rw [← List.append_assoc, List.mem_append] at hx
    exact hx.elim (fun hx => (hv.isEntryName h.wellFormed x hx).isStep) fun hx => (hnames x hx).isStep
  have hout : cacheName ∉ names ++ rest := by
    rw [List.mem_append, not_or]
    exact ⟨hv.outside, hrest⟩
  have hpath : d.below rest = .absolute (q ++ (names ++ rest)) := by
    rw [hv.path, ← List.append_assoc]
    rfl
  rw [hpath]
  exact h.walkFrom hq (by decide) hs hout

/-- The files below a visible directory are the same in both. -/
theorem projectFiles_below (hv : IsVisible fs q d names) (hnames : ∀ x ∈ rest, IsEntryName x) (hrest : cacheName ∉ rest) :
    projectFiles fs {} (d.below rest) = projectFiles fs' {} (d.below rest) := by
  rw [projectFiles, projectFiles, walkFrom_below h hq hv rest hnames hrest]

theorem walkFrom_eq (hv : IsVisible fs q d names) :
    fs.walkFrom ({} : Rules).enters d = fs'.walkFrom ({} : Rules).enters d := by
  have hwalk := walkFrom_below h hq hv [] (by simp) List.not_mem_nil
  rwa [Path.below_nil] at hwalk

/-! ## Discovery -/

/-- A directory outside of caches is classified alike in both when they agree on its installed module. -/
theorem classify_eq (ho : OutsideCaches cacheName q d)
    (hmodule : fs.exists? (d.join (Check.modulePath {})) = fs'.exists? (d.join (Check.modulePath {}))) (scanRoot : Path) :
    Discovery.classify fs {} scanRoot d = Discovery.classify fs' {} scanRoot d := by
  have hmanifestName : IsEntryName ({} : Rules).manifestName := by decide
  have hconfigName : IsEntryName ({} : Rules).requiredConfig := by decide
  have hdirs : ∀ x ∈ ({} : Rules).characteristicDirs, IsEntryName x := by decide
  have hmanifest : Check.manifest fs {} scanRoot d = Check.manifest fs' {} scanRoot d := by
    rw [Check.manifest, Check.manifest, loadJsonMap, loadJsonMap, loadJson, loadJson,
      Files.text?_of_bare (stat?_join h hq ho hmanifestName)]
  have hstructure : Check.structureOf fs {} scanRoot d = Check.structureOf fs' {} scanRoot d := by
    rw [Check.structureOf, Check.structureOf, hmanifest, Check.required, Check.required, Check.required, Check.required,
      Files.exists?_of_bare (stat?_join h hq ho hconfigName), hmodule]
  rw [Discovery.classify, Discovery.classify, Files.isFile?_of_bare (stat?_join h hq ho hmanifestName), hstructure,
    Files.namesBelow_congr fun x hx => Files.isDir?_of_bare (stat?_join h hq ho (hdirs x hx))]

/-- The discovery ends alike in both when they agree on the installed modules. -/
theorem outcome_discover
    (hmodule : ∀ d entries, fs.Reaches ({} : Rules).enters (.absolute q) d entries →
      fs.exists? (d.join (Check.modulePath {})) = fs'.exists? (d.join (Check.modulePath {}))) :
    (Discovery.discover fs {} (.absolute q)).outcome = (Discovery.discover fs' {} (.absolute q)).outcome := by
  have hroot := IsVisible.scanRoot hq
  apply Logged.RelatedBy.outcome_eq
  rw [Discovery.discover, Discovery.discover, hroot.resolve h.wellFormed, (hroot.transfer h).resolve h.wellFormed']
  refine Logged.RelatedBy.bind_of_eq rfl fun root hr => ?_
  cases hr
  have hdirs : Discovery.candidateDirs fs {} (.absolute q) = Discovery.candidateDirs fs' {} (.absolute q) := by
    rw [Discovery.candidateDirs, Discovery.candidateDirs, walkFrom_eq h hq hroot]
  rw [← hdirs]
  refine Logged.RelatedBy.bind_of_eq rfl fun dirs hdirs => ?_
  refine Logged.RelatedBy.bind_of_eq (Logged.outcome_collect_congr fun d hd => ?_) fun found _ => Logged.RelatedBy.refl _
  obtain ⟨entries, hr, -⟩ := (Discovery.mem_candidateDirs_iff h.wellFormed hdirs).1 hd
  obtain ⟨names, hv, -⟩ := hroot.reaches h.wellFormed hr
  rw [Discovery.classifyLogged, Discovery.classifyLogged, classify_eq h hq hv.outsideCaches (hmodule d entries hr)]

end SameReport

/-- The roots of the projects that a discovery finds are visible. -/
theorem exists_isVisible (hw : fs.WellFormed) (hq : fs.at? q = some (.dir es)) {found : Discovery.Result}
    (hfound : (Discovery.discover fs {} (.absolute q)).outcome = .ok found) {project : Path} (hp : project ∈ found.validRoots) :
    ∃ names, IsVisible fs q project names := by
  have hroot := IsVisible.scanRoot hq
  obtain ⟨entries, hr⟩ := Discovery.reaches_of_mem_validRoots hw (hroot.resolve hw) hfound hp
  obtain ⟨names, hv, -⟩ := hroot.reaches hw hr
  exact ⟨_, hv⟩

/-! ## What lies beside the scan root -/

section Surroundings

variable (h : SameOutsideCaches cacheName q fs fs') (hq : fs.at? q = some (.dir es))

include h hq

/-- A snapshot that leaves out caches shows the same in both. -/
theorem shownBelow_eq {ignored : List String} (hignored : cacheName ∈ ignored) (depth : Nat) : ∀ {path : Path},
    OutsideCaches cacheName q path →
      Snapshot.shownBelow fs ignored depth path = Snapshot.shownBelow fs' ignored depth path := by
  induction depth with
  | zero =>
    intro path _
    rw [Snapshot.shownBelow, Snapshot.shownBelow]
  | succ depth ih =>
    intro path ho
    have hvisible : Snapshot.visibleNames fs ignored path = Snapshot.visibleNames fs' ignored path := by
      rw [Snapshot.visibleNames, Snapshot.visibleNames, h.directoryAt_names hq ho]
      simp only [Files.isDir?_of_bare (h.stat?_child hq ho _)]
    rw [Snapshot.shownBelow_succ, Snapshot.shownBelow_succ, ← hvisible]
    cases hv : Snapshot.visibleNames fs ignored path with
    | error e => simp only [Except.bind]
    | ok seen =>
      simp only [Except.bind]
      refine mapM_congr fun shown hm => ?_
      obtain ⟨-, hshown, -⟩ := Snapshot.mem_visibleNames hv hm
      have hname : shown.1 ≠ cacheName := fun hc => hshown (hc ▸ hignored)
      rw [ih (ho.child hname)]

/-- What lies beside the scan root is reported alike. -/
theorem surroundings_eq : Check.surroundings fs {} (.absolute q) = Check.surroundings fs' {} (.absolute q) := by
  have hparent : OutsideCaches cacheName q (Path.absolute q).parent :=
    ⟨q.dropLast, [], List.dropLast_prefix q, (List.append_nil _).symm, List.not_mem_nil⟩
  have hmarkers : ∀ x ∈ ({} : Rules).markerItems, IsEntryName x := by decide
  have hforbidden : ∀ x ∈ ({} : Rules).forbiddenDirs, IsEntryName x := by decide
  rw [Check.surroundings, Check.surroundings, Snapshot.draw, Snapshot.draw, Snapshot.lines, Snapshot.lines,
    shownBelow_eq h hq (by decide) _ hparent,
    Files.namesBelow_congr fun x hx => Files.exists?_of_bare (stat?_join h hq hparent (hmarkers x hx)),
    Files.namesBelow_congr fun x hx => Files.isDir?_of_bare (stat?_join h hq hparent (hforbidden x hx))]

end Surroundings

/-! ## Scans -/

/-- What is listed in caches below the target directories of a project has paths that are short enough to be looked up. -/
def CachesFit (fs : FileSystem) (project : Path) : Prop :=
  ∀ name ∈ characteristicDirs, ∀ c ∈ fs.descendants (project.join (Path.ofString name)),
    Files.passesCache cacheName project.parts.length c = true → c.text.utf8ByteSize < Files.pathBytesLimit

instance (fs : FileSystem) (project : Path) : Decidable (CachesFit fs project) :=
  inferInstanceAs (Decidable (∀ name ∈ characteristicDirs, ∀ c ∈ fs.descendants (project.join (Path.ofString name)),
    Files.passesCache cacheName project.parts.length c = true → c.text.utf8ByteSize < Files.pathBytesLimit))

/-- What is listed in a cache is looked up and left out. -/
theorem outcome_ofCandidate_hidden (hw : fs.WellFormed) (hno : fs.NoLinks) {position : List String}
    {n : Node} (hn : fs.at? (position ++ rest) = some n) (hrest : cacheName ∈ rest)
    (hfit : (Path.absolute (position ++ rest)).text.utf8ByteSize < Files.pathBytesLimit) (targets : List Path) :
    (SourceFile.ofCandidate fs {} (.absolute position) targets (.absolute (position ++ rest))).outcome = .ok [] := by
  have hnames : ∀ x ∈ position ++ rest, IsEntryName x := (Node.WellFormed.below hw hn).2
  have hroute : fs.route (.absolute (position ++ rest)) = .ok ⟨position ++ rest, n⟩ :=
    hw.route_absolute hn (hno.target?_of_at? hn)
  have hlook : fs.CanLookUp (.absolute (position ++ rest)) := by
    right
    rw [FileSystem.stat?_eq_ok.2 ⟨hfit, _, hroute⟩]
    exact nofun
  obtain ⟨found, hfound⟩ := SourceFile.exists_ofCandidate hlook {} (.absolute position) targets
  rw [hfound]
  refine congrArg Except.ok (List.eq_nil_iff_forall_not_mem.2 fun f hf => ?_)
  obtain ⟨-, -, path, hpath, hin⟩ := (SourceFile.mem_ofCandidate_iff hfound).1 hf
  rw [FileSystem.resolve_of_route hroute (Files.nul_not_mem_absolute hnames)] at hpath
  cases hpath
  have hseen := (SourceFile.of_mem_inProject hin).2
  rw [show Path.absolute (position ++ rest) = (Path.absolute position).below rest from rfl, Path.below_relativeTo?] at hseen
  refine SourceFile.dependencyCacheDir_not_mem_location hin ?_
  rw [← Option.some.inj hseen]
  exact hrest

section Scan

variable (h : SameOutsideCaches cacheName q fs fs') (hq : fs.at? q = some (.dir es))

include h hq

/-- What is listed outside of caches is looked up alike. -/
theorem outcome_ofCandidate_visible (hv : IsVisible fs q d names) (hne : rest ≠ []) (hrest : cacheName ∉ rest.dropLast)
    (root : Path) (targets : List Path) :
    (SourceFile.ofCandidate fs {} root targets (d.below rest)).outcome =
      (SourceFile.ofCandidate fs' {} root targets (d.below rest)).outcome := by
  have hchild : d.below rest = (d.below rest.dropLast).child (rest.getLast hne) := by
    rw [Path.below_child, List.dropLast_concat_getLast]
  have hfile : fs.isFile? (d.below rest) = fs'.isFile? (d.below rest) := by
    rw [hchild]
    exact Files.isFile?_of_bare (h.stat?_child hq (hv.outsideCaches_below hrest) _)
  rw [SourceFile.outcome_ofCandidate, SourceFile.outcome_ofCandidate, hfile, h.noLinks.resolve_eq,
    h.symm.noLinks.resolve_eq]

end Scan

/-- The name of a target directory is one that entries can have. -/
theorem isEntryName_of_mem_characteristicDirs {name : String} (h : name ∈ characteristicDirs) : IsEntryName name := by
  have hall : ∀ x ∈ characteristicDirs, IsEntryName x := by decide
  exact hall name h

theorem join_target {name : String} (h : name ∈ characteristicDirs) (d : Path) :
    d.join (Path.ofString name) = d.child name :=
  Path.join_ofString_part (isEntryName_of_mem_characteristicDirs h).isPart

/-- The path of a target directory of a visible directory has no dot names. -/
theorem IsVisible.isStep_target (hv : IsVisible fs q d names) (hw : fs.WellFormed) {name : String}
    (h : name ∈ characteristicDirs) : ∀ x ∈ (d.child name).parts, IsStep x := by
  intro x hx
  rw [Path.child, hv.path, List.mem_append, List.mem_singleton] at hx
  exact hx.elim (fun hx => (hv.isEntryName hw x hx).isStep) fun hx => hx ▸ (isEntryName_of_mem_characteristicDirs h).isStep

/-- What is listed below a target directory of a visible directory stands below it, under names of which the first is that of the
target directory. -/
theorem exists_of_mem_target (hw : fs.WellFormed) (hno : fs.NoLinks) (hv : IsVisible fs q d names)
    {name : String} (hname : name ∈ characteristicDirs) {c : Path}
    (hc : c ∈ fs.descendants (d.join (Path.ofString name))) :
    ∃ more n, more ≠ [] ∧ fs.at? (d.parts ++ name :: more) = some n ∧ c = d.below (name :: more) := by
  rw [join_target hname] at hc
  obtain ⟨more, n, hne, hn, rfl⟩ := hno.exists_at?_of_mem_descendants hw (hv.isStep_target hw hname) hc
  refine ⟨more, n, hne, ?_, Path.child_below d more name⟩
  rwa [Path.child, List.append_assoc] at hn

theorem passesCache_below_visible (names : List String) :
    Files.passesCache cacheName d.parts.length (d.below names) = names.dropLast.contains cacheName := by
  rw [Files.passesCache_below (Nat.le_refl _), List.drop_length, List.nil_append]

/-- The listing of a target directory gives what its entries outside of caches give. -/
theorem outcome_collect_outside (hw : fs.WellFormed) (hno : fs.NoLinks) (hv : IsVisible fs q d names)
    (hfit : CachesFit fs d) {name : String} (hname : name ∈ characteristicDirs) (targets : List Path) :
    (Logged.collect (SourceFile.ofCandidate fs {} d targets) (fs.descendants (d.join (Path.ofString name)))).outcome =
      (Logged.collect (SourceFile.ofCandidate fs {} d targets) ((fs.descendants (d.join (Path.ofString name))).filter
        fun c => !Files.passesCache cacheName d.parts.length c)).outcome := by
  refine Logged.outcome_collect_filter fun c hc hhidden => ?_
  rw [Bool.not_eq_false'] at hhidden
  have hshort := hfit name hname c hc hhidden
  obtain ⟨more, n, -, hn, rfl⟩ := exists_of_mem_target hw hno hv hname hc
  rw [passesCache_below_visible, List.contains_iff_mem] at hhidden
  have hd : d = .absolute d.parts := by rw [hv.path]; rfl
  rw [hd] at hshort ⊢
  exact outcome_ofCandidate_hidden hw hno hn (List.dropLast_subset _ hhidden) hshort targets

section Project

variable (h : SameOutsideCaches cacheName q fs fs') (hq : fs.at? q = some (.dir es)) (hv : IsVisible fs q d names)

include h hq hv

/-- A target directory lists the same outside of caches in both. -/
theorem filter_descendants_target {name : String} (hname : name ∈ characteristicDirs) :
    (fs.descendants (d.join (Path.ofString name))).filter (fun c => !Files.passesCache cacheName d.parts.length c) =
      (fs'.descendants (d.join (Path.ofString name))).filter fun c => !Files.passesCache cacheName d.parts.length c := by
  have hvisible : ∀ x ∈ characteristicDirs, cacheName ≠ x := by decide
  have hlen : d.parts.length = (q ++ names).length := by rw [hv.path]; rfl
  have hpath : d.child name = .absolute (q ++ (names ++ [name])) := by
    rw [hv.path, ← List.append_assoc]
    rfl
  have hs := hv.isStep_target h.wellFormed hname
  rw [hpath] at hs
  rw [join_target hname, hpath]
  refine h.filter_descendants hq hs ?_ ?_ ?_
  · rw [List.mem_append, List.mem_singleton, not_or]
    exact ⟨hv.outside, hvisible name hname⟩
  · rw [hlen, ← List.append_assoc]
    exact (List.prefix_append (q ++ names) [name]).length_le
  · rw [hlen, ← List.append_assoc, List.drop_left, List.mem_singleton]
    exact hvisible name hname

/-- What is found below a target directory is the same in both. -/
theorem outcome_ofTarget_eq (hfit : CachesFit fs d) (hfit' : CachesFit fs' d) {name : String}
    (hname : name ∈ characteristicDirs) (targets : List Path) :
    (SourceFile.ofTarget fs {} d targets (Path.ofString name)).outcome =
      (SourceFile.ofTarget fs' {} d targets (Path.ofString name)).outcome := by
  rw [SourceFile.outcome_ofTarget, SourceFile.outcome_ofTarget,
    Files.isDir?_of_bare (stat?_join h hq hv.outsideCaches (isEntryName_of_mem_characteristicDirs hname))]
  cases fs'.isDir? (d.join (Path.ofString name)) with
  | error e => simp only [Except.bind]
  | ok isDir =>
    simp only [Except.bind]
    split
    · rw [outcome_collect_outside h.wellFormed h.noLinks hv hfit hname,
        outcome_collect_outside h.wellFormed' h.symm.noLinks (hv.transfer h) hfit' hname,
        ← filter_descendants_target h hq hv hname]
      refine Logged.outcome_collect_congr fun c hc => ?_
      obtain ⟨hlisted, hvisible⟩ := List.mem_filter.1 hc
      obtain ⟨more, n, -, -, rfl⟩ := exists_of_mem_target h.wellFormed h.noLinks hv hname hlisted
      rw [passesCache_below_visible] at hvisible
      exact outcome_ofCandidate_visible h hq hv (List.cons_ne_nil _ _) (by simpa using hvisible) d targets
    · rfl

/-- A scan ends alike in both. -/
theorem outcome_scan (hfit : CachesFit fs d) (hfit' : CachesFit fs' d) :
    (SourceFile.scan fs {} d characteristicDirs).outcome = (SourceFile.scan fs' {} d characteristicDirs).outcome := by
  apply Logged.RelatedBy.outcome_eq
  rw [SourceFile.scan, SourceFile.scan, hv.resolve h.wellFormed, (hv.transfer h).resolve h.wellFormed']
  refine Logged.RelatedBy.bind_of_eq rfl fun root hroot => ?_
  cases hroot
  refine Logged.RelatedBy.bind_of_eq (Logged.outcome_collect_congr fun target htarget => ?_) fun found _ => Logged.RelatedBy.refl _
  obtain ⟨name, hname, rfl⟩ := List.mem_map.1 htarget
  exact outcome_ofTarget_eq h hq hv hfit hfit' hname _

/-! ## Checks -/

/-- Wrappers that were scanned are read alike. -/
theorem outcome_wrapperNames {files : List SourceFile}
    (hscan : (SourceFile.scan fs {} d characteristicDirs).outcome = .ok files) :
    (Check.wrapperNames fs {} files).outcome = (Check.wrapperNames fs' {} files).outcome := by
  refine Logged.outcome_collect_congr fun f hf => ?_
  obtain ⟨hf, -⟩ := List.mem_filter.1 hf
  obtain ⟨root, _, _, hroot, -, -, hl⟩ := SourceFile.of_mem_scan hscan hf
  rw [hv.resolve h.wellFormed] at hroot
  cases hroot
  have hout : OutsideCaches cacheName q f.path := by
    rw [(Path.relativeTo?_eq_some hl).2]
    exact hv.outsideCaches_below (SourceFile.dependencyCacheDir_not_mem_of_mem_scan hscan hf)
  rw [Check.wrapperName, Check.wrapperName, Files.text?_of_bare (h.stat?_bare hq hout)]

/-- Contracts of the same name are found alike. -/
theorem duplicateNames_eq : Check.duplicateNames fs {} d = Check.duplicateNames fs' {} d := by
  have hname : IsEntryName ({} : Rules).contractsDir := by decide
  have hout : cacheName ∉ [({} : Rules).contractsDir] := by decide
  rw [Check.duplicateNames, Check.duplicateNames, Files.isDir?_of_bare (stat?_join h hq hv.outsideCaches hname),
    Path.join_ofString_part hname.isPart, Path.child_eq_below, projectFiles_below h hq hv (by simpa using hname) hout]

/-- Sources whose paths hold no cache are looked for alike. -/
theorem outcome_missingDiagnostics {α : Type} (path : α → String) {declared : List α}
    (hdeclared : ∀ a ∈ declared, cacheName ∉ (Path.ofString (path a)).parts) (diagnostic : α → Diagnostic) :
    (Check.missingDiagnostics fs d path diagnostic declared).outcome =
      (Check.missingDiagnostics fs' d path diagnostic declared).outcome := by
  refine Logged.outcome_collect_congr fun a ha => ?_
  rw [Check.isMissing, Check.isMissing,
    Files.exists?_of_bare (h.stat?_bare hq (hv.outsideCaches_join (hdeclared a ha)))]

end Project

/-- No path that the files of a project declare, in the build configuration or in a compile file, holds the name of caches. -/
structure DeclaresOutside (fs : FileSystem) (project : Path) : Prop where
  /-- What the build configuration declares. -/
  config : ∀ v, loadJson fs (project.join (Path.ofString ({} : Rules).buildConfigName)) = .ok (.ok v) →
    ∀ e ∈ Check.buildEntries v, cacheName ∉ (Path.ofString e.path).parts
  /-- What a compile file declares. -/
  compileFiles : ∀ path, fs.ReachesFile ({} : Rules).enters project path → endsIn path.name ({} : Rules).compileSuffix = true →
    ∀ source, fs.text? path = .ok source →
      ∀ t ∈ (Source.declaredTargets source).1, cacheName ∉ (Path.ofString (String.ofList t)).parts

section Project

variable (h : SameOutsideCaches cacheName q fs fs') (hq : fs.at? q = some (.dir es)) (hv : IsVisible fs q d names)
  (hdeclared : DeclaresOutside fs d)

include h hq hv hdeclared

/-- The build configuration is checked alike. -/
theorem outcome_buildConfig : (Check.buildConfig fs {} d).outcome = (Check.buildConfig fs' {} d).outcome := by
  have hname : IsEntryName ({} : Rules).buildConfigName := by decide
  have hbare := stat?_join h hq hv.outsideCaches hname
  have hload : loadJson fs (d.join (Path.ofString ({} : Rules).buildConfigName)) =
      loadJson fs' (d.join (Path.ofString ({} : Rules).buildConfigName)) := by
    rw [loadJson, loadJson, Files.text?_of_bare hbare]
  apply Logged.RelatedBy.outcome_eq
  rw [Check.buildConfig, Check.buildConfig, ← Files.exists?_of_bare hbare, ← hload]
  refine Logged.RelatedBy.bind_of_eq rfl fun there _ => ?_
  cases there with
  | false =>
    simp only [Bool.not_false, if_true]
    exact Logged.RelatedBy.refl _
  | true =>
    simp only [Bool.not_true, Bool.false_eq_true, if_false]
    refine Logged.RelatedBy.bind_of_eq rfl fun loaded hloaded => ?_
    cases loaded with
    | error fault => exact Logged.RelatedBy.refl _
    | ok v =>
      exact Logged.RelatedBy.of_eq (fun _ => rfl)
        (outcome_missingDiagnostics h hq hv _ (hdeclared.config v hloaded) (Check.buildEntryDiagnostic {}))

/-- A compile file is checked alike. -/
theorem outcome_compileFile {path : Path} (hr : fs.ReachesFile ({} : Rules).enters d path)
    (hend : endsIn path.name ({} : Rules).compileSuffix = true) :
    (Check.compileFile fs d path).outcome = (Check.compileFile fs' d path).outcome := by
  obtain ⟨directory, entries, name, n, hdir, -, -, rfl⟩ := id hr
  obtain ⟨more, hvisible, -⟩ := hv.reaches h.wellFormed hdir
  rw [Check.compileFile, Check.compileFile, ← Files.text?_of_bare (h.stat?_child hq hvisible.outsideCaches name)]
  cases ht : fs.text? (directory.child name) with
  | error e => rfl
  | ok source =>
    have htargets := hdeclared.compileFiles _ hr hend source ht
    dsimp only
    split
    · rename_i targets form hd
      rw [hd] at htargets
      refine outcome_missingDiagnostics h hq hv id (fun t hmem => ?_) _
      obtain ⟨t, ht, rfl⟩ := List.mem_map.1 hmem
      exact htargets t ht
    · rfl

/-- All compile files are checked alike. -/
theorem outcome_compileFiles : (Check.compileFiles fs {} d).outcome = (Check.compileFiles fs' {} d).outcome := by
  have hpaths : Check.compileFilePaths fs {} d = Check.compileFilePaths fs' {} d := by
    rw [Check.compileFilePaths, Check.compileFilePaths, projectFiles, projectFiles, walkFrom_eq h hq hv]
  apply Logged.RelatedBy.outcome_eq
  rw [Check.compileFiles, Check.compileFiles, ← hpaths]
  refine Logged.RelatedBy.bind_of_eq rfl fun paths hlisted => ?_
  refine Logged.RelatedBy.of_eq (fun _ => rfl) (Logged.outcome_collect_congr fun path hpath => ?_)
  obtain ⟨hr, hend⟩ := (Check.mem_compileFilePaths_iff h.wellFormed hlisted).1 hpath
  exact outcome_compileFile h hq hv hdeclared hr hend

/-- All checks of a project end alike. -/
theorem outcome_projectDiagnostics (hfit : CachesFit fs d) (hfit' : CachesFit fs' d) :
    (projectDiagnostics fs {} characteristicDirs d).outcome = (projectDiagnostics fs' {} characteristicDirs d).outcome := by
  apply Logged.RelatedBy.outcome_eq
  rw [projectDiagnostics, projectDiagnostics, ← duplicateNames_eq h hq hv]
  refine Logged.RelatedBy.bind_of_eq (outcome_scan h hq hv hfit hfit') fun files hscan => ?_
  refine Logged.RelatedBy.bind_of_eq rfl fun duplicates _ => ?_
  refine Logged.RelatedBy.bind_of_eq (outcome_wrapperNames h hq hv hscan) fun wrappers _ => ?_
  have hreferences : (Check.references fs {} d).outcome = (Check.references fs' {} d).outcome := by
    apply Logged.RelatedBy.outcome_eq
    refine Logged.RelatedBy.bind_of_eq (outcome_buildConfig h hq hv hdeclared) fun ofConfig _ => ?_
    exact Logged.RelatedBy.bind_of_eq (outcome_compileFiles h hq hv hdeclared) fun ofFiles _ => Logged.RelatedBy.refl _
  exact Logged.RelatedBy.bind_of_eq hreferences fun references _ => Logged.RelatedBy.refl _

end Project

/-! ## Paths that are too long -/

/-- Where a scan succeeds everything that it lists was looked up. -/
theorem cachesFit_of_scan (hw : fs.WellFormed) (hno : fs.NoLinks) (hv : IsVisible fs q d names)
    {files : List SourceFile} (hscan : (SourceFile.scan fs {} d characteristicDirs).outcome = .ok files) : CachesFit fs d := by
  intro name hname c hc _
  obtain ⟨root, found, hroot, hfound, -⟩ := SourceFile.scan_eq_ok.1 hscan
  rw [hv.resolve hw] at hroot
  cases hroot
  obtain ⟨g, hg, -⟩ := Logged.collect_eq_ok.1 hfound
  have htarget := hg _ (List.mem_map.2 ⟨name, hname, rfl⟩)
  obtain ⟨more, n, -, hn, hpath⟩ := exists_of_mem_target hw hno hv hname hc
  have hnul : ∀ x ∈ d.parts ++ name :: more, '\x00' ∉ x.toList :=
    fun x hx => ((Node.WellFormed.below hw hn).2 x hx).2.2.2.2.1
  have hbase : '\x00' ∉ (d.join (Path.ofString name)).text.toList := by
    rw [join_target hname, Path.nul_not_mem_text]
    refine fun x hx => hnul x (List.IsPrefix.subset ⟨more, ?_⟩ hx)
    rw [Path.child, List.append_assoc]
    rfl
  rw [SourceFile.outcome_ofTarget, FileSystem.isDir?_of_mem_descendants hc hbase] at htarget
  obtain ⟨g', hg', -⟩ := Logged.collect_eq_ok.1 htarget
  refine (SourceFile.canLookUp_of_ofCandidate (hg' c hc)).short ?_
  rw [hpath, Path.nul_not_mem_text]
  exact hnul

/-- Where a path in a cache is too long one diagnostic of the whole project is left. -/
theorem checkProject_of_not_fit (hw : fs.WellFormed) (hno : fs.NoLinks) (hv : IsVisible fs q d names)
    (hlong : ¬CachesFit fs d) (scanRoot : Path) :
    ∃ e, (checkProject fs {} characteristicDirs scanRoot d).outcome =
      .ok [failureDiagnostic (relativeLocation d scanRoot) e] := by
  rw [outcome_checkProject]
  cases hds : (projectDiagnostics fs {} characteristicDirs d).outcome with
  | error e => exact ⟨e, rfl⟩
  | ok ds =>
    obtain ⟨files, -, -, -, hscan, -⟩ := projectDiagnostics_eq_ok.1 hds
    exact absurd (cachesFit_of_scan hw hno hv hscan) hlong

end DependencyCaches

/-- Two trees without links that differ only in what lies in dependency caches below the scan root have the same report, when they
agree on the installed modules, no file of a project declares a path with a cache, and what lies in caches below target directories
has paths that are short enough to be looked up. A path that is too long leaves one diagnostic of its whole project. -/
theorem lint_sameOutsideCaches {fs fs' : FileSystem} {q : List String} (h : SameOutsideCaches DependencyCaches.cacheName q fs fs')
    {scanRoot : Path} (hroot : fs.resolve scanRoot = .ok (.absolute q))
    (hmodule : ∀ d entries, fs.Reaches ({} : Rules).enters (.absolute q) d entries →
      fs.exists? (d.join (Check.modulePath {})) = fs'.exists? (d.join (Check.modulePath {})))
    (hdeclared : ∀ found, (Discovery.discover fs {} (.absolute q)).outcome = .ok found → ∀ project ∈ found.validRoots,
      DependencyCaches.DeclaresOutside fs project) :
    ((∀ found, (Discovery.discover fs {} (.absolute q)).outcome = .ok found → ∀ project ∈ found.validRoots,
        DependencyCaches.CachesFit fs project ∧ DependencyCaches.CachesFit fs' project) →
      (lint fs {} characteristicDirs scanRoot).outcome = (lint fs' {} characteristicDirs scanRoot).outcome) ∧
      ∀ found, (Discovery.discover fs {} (.absolute q)).outcome = .ok found → ∀ project ∈ found.validRoots,
        ¬DependencyCaches.CachesFit fs project → ∃ e, (checkProject fs {} characteristicDirs (.absolute q) project).outcome =
          .ok [failureDiagnostic (relativeLocation project (.absolute q)) e] := by
  by_cases hdir : ∃ es, fs.at? q = some (.dir es)
  · obtain ⟨es, hq⟩ := hdir
    constructor
    · intro hfit
      apply Logged.RelatedBy.outcome_eq
      have hroot' : fs'.resolve scanRoot = .ok (.absolute q) := by
        rw [h.noLinks.resolve_eq] at hroot
        rw [h.symm.noLinks.resolve_eq, hroot]
      rw [lint, lint, hroot, hroot']
      refine Logged.RelatedBy.bind_of_eq rfl fun root hr => ?_
      cases hr
      refine Logged.RelatedBy.bind_of_eq rfl fun _ _ => ?_
      rw [← DependencyCaches.surroundings_eq h hq]
      refine Logged.RelatedBy.bind_of_eq rfl fun beside _ => ?_
      refine Logged.RelatedBy.bind_of_eq (DependencyCaches.outcome_discover h hq hmodule) fun found hfound => ?_
      refine Logged.RelatedBy.bind_of_eq (Logged.outcome_collect_congr fun project hp => ?_) fun _ _ => Logged.RelatedBy.refl _
      obtain ⟨names, hv⟩ := DependencyCaches.exists_isVisible h.wellFormed hq hfound hp
      obtain ⟨hfits, hfits'⟩ := hfit found hfound project hp
      rw [outcome_checkProject, outcome_checkProject,
        DependencyCaches.outcome_projectDiagnostics h hq hv (hdeclared found hfound project hp) hfits hfits']
    · intro found hfound project hp hlong
      obtain ⟨names, hv⟩ := DependencyCaches.exists_isVisible h.wellFormed hq hfound hp
      exact DependencyCaches.checkProject_of_not_fit h.wellFormed h.noLinks hv hlong (.absolute q)
  · obtain rfl := h.eq_of_no_dir fun es hes => hdir ⟨es, hes⟩
    refine ⟨fun _ => rfl, fun found hfound project hp => ?_⟩
    have hcanonical := h.noLinks.resolve_resolve hroot
    obtain ⟨entries, hr⟩ := Discovery.reaches_of_mem_validRoots h.wellFormed hcanonical hfound hp
    obtain ⟨_, es, _, he, hq, -⟩ := hr.exists_at? hcanonical
    cases he
    exact absurd ⟨es, hq⟩ hdir

namespace DependencyCaches

/-- A project with a contract, and a cache beside it that holds some entries. -/
def cachedTree (cached : List (String × Node)) : FileSystem :=
  SampleTree.withProject [("contracts", .dir [("a.fc", .file []), ("node_modules", .dir cached)])]

/-- The root of the project. -/
def project : Path := .absolute ["w"]

/-- The directories that the walk reaches. -/
def reached : List Path := [.absolute [], .absolute ["w"], .absolute ["w", "contracts"]]

/-- Entries that can be held by the cache beside the contract: no links, and not the required module. -/
structure IsCache (cached : List (String × Node)) : Prop where
  /-- The tree of the cache is well formed. -/
  wellFormed : (Node.dir cached).WellFormed
  /-- There are no links. -/
  linkFree : Node.entriesLinkCount cached = 0
  /-- The required module is installed in the project, and nowhere else. -/
  modules : ∀ d ∈ reached, (cachedTree cached).exists? (d.join (Check.modulePath {})) = .ok (d = project)

namespace IsCache

variable {cached cached' : List (String × Node)}

theorem tree_wellFormed (h : IsCache cached) : (cachedTree cached).WellFormed := by
  have hw := h.wellFormed
  simp only [FileSystem.WellFormed, FileSystem.root, cachedTree, SampleTree.withProject, SampleTree.project, List.cons_append,
    List.nil_append, Node.WellFormed, Node.EntriesWellFormed, List.map_cons, List.map_nil, and_true, true_and] at hw ⊢
  refine ⟨by decide, by decide, by decide, by decide, by decide, by decide, by decide, by decide, by decide, by decide,
    by decide, hw⟩

theorem tree_linkCount (h : IsCache cached) : (cachedTree cached).root.linkCount = 0 := by
  simp [FileSystem.root, cachedTree, SampleTree.withProject, SampleTree.project, Node.linkCount, Node.entriesLinkCount,
    h.linkFree]

theorem same (h : IsCache cached) (h' : IsCache cached') :
    SameOutsideCaches cacheName [] (cachedTree cached) (cachedTree cached') :=
  ⟨h.tree_wellFormed, h'.tree_wellFormed, h.tree_linkCount, h'.tree_linkCount, rfl⟩

theorem empty : IsCache [] := ⟨(Node.wellFormed_dir []).2 ⟨List.nodup_nil, by simp⟩, rfl, by decide⟩

end IsCache

variable {cached cached' : List (String × Node)}

theorem at?_cachedTree (cached : List (String × Node)) : ∃ es, (cachedTree cached).at? [] = some (.dir es) := ⟨_, rfl⟩

theorem resolve_cachedTree (cached : List (String × Node)) : (cachedTree cached).resolve (.absolute []) = .ok (.absolute []) :=
  FileSystem.resolve_of_route (r := ⟨[], _⟩) rfl (by decide)

theorem isVisible_project (cached : List (String × Node)) : IsVisible (cachedTree cached) [] project ["w"] :=
  ⟨rfl, ⟨_, rfl⟩, by decide⟩

theorem mem_reached (h : IsCache cached) {d : Path} {entries : List (String × Node)}
    (hr : (cachedTree cached).Reaches ({} : Rules).enters (.absolute []) d entries) : d ∈ reached := by
  obtain ⟨es, hq⟩ := at?_cachedTree cached
  have hwalk := walkFrom_eq (h.same .empty) hq (IsVisible.scanRoot hq)
  have hvisits : (((cachedTree []).walkFrom ({} : Rules).enters (.absolute [])).toOption.map fun visits => visits.map (·.path)) =
      some reached := by decide
  obtain ⟨visits, hv⟩ : ∃ visits, (cachedTree cached).walkFrom ({} : Rules).enters (.absolute []) = .ok visits :=
    FileSystem.exists_walkFrom _ _ (by decide)
  have hmem := (FileSystem.mem_walkFrom_iff h.tree_wellFormed hv).2 ⟨d, entries, hr, rfl⟩
  rw [← hwalk, hv] at hvisits
  rw [← Option.some.inj hvisits]
  exact List.mem_map.2 ⟨_, hmem, rfl⟩

/-- Trees that differ in the cache beside the contract agree on the installed modules. -/
theorem modules_agree (h : IsCache cached) (h' : IsCache cached') (d : Path) (entries : List (String × Node))
    (hr : (cachedTree cached).Reaches ({} : Rules).enters (.absolute []) d entries) :
    (cachedTree cached).exists? (d.join (Check.modulePath {})) = (cachedTree cached').exists? (d.join (Check.modulePath {})) := by
  have hd := mem_reached h hr
  rw [h.modules d hd, h'.modules d hd]

/-- The project is what a discovery finds, whatever is in the cache. -/
theorem discover_cachedTree (h : IsCache cached) :
    ∃ found, (Discovery.discover (cachedTree cached) {} (.absolute [])).outcome = .ok found ∧ found.validRoots = [project] := by
  obtain ⟨es, hq⟩ := at?_cachedTree []
  have hfound : ((Discovery.discover (cachedTree []) {} (.absolute [])).outcome.toOption.map (·.validRoots)) =
      some [project] := by decide +kernel
  rw [outcome_discover (IsCache.empty.same h) hq (modules_agree .empty h)] at hfound
  cases hd : (Discovery.discover (cachedTree cached) {} (.absolute [])).outcome with
  | error e =>
    rw [hd] at hfound
    nomatch hfound
  | ok found =>
    rw [hd] at hfound
    exact ⟨found, rfl, Option.some.inj hfound⟩

theorem eq_project_of_mem (h : IsCache cached) {found : Discovery.Result}
    (hfound : (Discovery.discover (cachedTree cached) {} (.absolute [])).outcome = .ok found) {p : Path}
    (hp : p ∈ found.validRoots) : p = project := by
  obtain ⟨found', hfound', hroots⟩ := discover_cachedTree h
  rw [hfound] at hfound'
  cases hfound'
  rwa [hroots, List.mem_singleton] at hp

/-- Nothing is declared in the project. -/
theorem declaresOutside_cachedTree (h : IsCache cached) : DeclaresOutside (cachedTree cached) project := by
  have hsame := h.same .empty
  obtain ⟨es, hq⟩ := at?_cachedTree cached
  have hv := isVisible_project cached
  constructor
  · intro v hv'
    have hnone : ((loadJson (cachedTree []) (project.join (Path.ofString ({} : Rules).buildConfigName))).toOption.bind
        (·.toOption)).isNone = true := by decide +kernel
    rw [loadJson, ← Files.text?_of_bare (stat?_join hsame hq hv.outsideCaches (by decide)), ← loadJson, hv'] at hnone
    cases hnone
  · intro path hr hend
    have hpaths : Check.compileFilePaths (cachedTree cached) {} project = .ok [] := by
      have hnone : Check.compileFilePaths (cachedTree []) {} project = .ok [] := by decide +kernel
      rwa [Check.compileFilePaths, projectFiles, ← walkFrom_eq hsame hq hv] at hnone
    exact absurd ((Check.mem_compileFilePaths_iff h.tree_wellFormed hpaths).2 ⟨hr, hend⟩) List.not_mem_nil

/-- An installed package that holds a contract under a name that no contract may have. -/
def package : List (String × Node) := [("pkg", .dir [("Bad Name.fc", .file [])])]

theorem isCache_package : IsCache package := by
  refine ⟨?_, rfl, by decide⟩
  simp only [package, Node.WellFormed, Node.EntriesWellFormed, List.map_cons, List.map_nil]
  exact ⟨by decide, by decide, ⟨by decide, by decide, trivial, trivial⟩, trivial⟩

/-- Directories of one name, each in the one before. -/
def nested : Nat → List (String × Node)
  | 0 => []
  | n + 1 => [("pkg", .dir (nested n))]

theorem nested_wellFormed (n : Nat) : (Node.dir (nested n)).WellFormed := by
  induction n with
  | zero => exact IsCache.empty.wellFormed
  | succ n ih =>
    have hname : IsEntryName "pkg" := by decide
    rw [Node.wellFormed_dir]
    exact ⟨List.nodup_singleton _, List.forall_mem_singleton.2 ⟨hname, ih⟩⟩

theorem nested_linkCount (n : Nat) : Node.entriesLinkCount (nested n) = 0 := by
  induction n with
  | zero => rfl
  | succ n ih => rw [nested, Node.entriesLinkCount, Node.entriesLinkCount, Node.linkCount, ih]

theorem nested_at? (n : Nat) : (Node.dir (nested n)).at? (List.replicate n "pkg") = some (.dir []) := by
  induction n with
  | zero => rfl
  | succ n ih =>
    rw [nested, List.replicate_succ, Node.at?_cons, Node.child?_dir, Node.lookup_cons_self]
    exact ih

/-- Directories in each other in a cache have paths that are too long when there are enough of them. -/
theorem not_cachesFit_nested {n : Nat} (hn : Files.pathBytesLimit ≤ n * 3) : ¬CachesFit (cachedTree (nested n)) project := by
  intro hfit
  have hentry : ∀ x ∈ (project.child "contracts").parts, IsEntryName x := by decide
  have hstat : (cachedTree (nested n)).stat? (project.child "contracts") =
      .ok (.dir [("a.fc", .file []), ("node_modules", .dir (nested n))]) :=
    FileSystem.stat?_eq_ok.2 ⟨by decide, _, FileSystem.route_of_at? rfl (fun x hx => (hentry x hx).isStep) rfl⟩
  have hlisted : ((project.child "contracts").child cacheName).below (List.replicate n "pkg") ∈
      (cachedTree (nested n)).descendants (project.join (Path.ofString "contracts")) := by
    rw [join_target (by decide), FileSystem.descendants, FileSystem.directoryAt_of_stat? hstat, Path.child_below]
    exact Node.below_mem_descendants (List.cons_ne_nil _ _) (nested_at? n)
  have hne : List.replicate n "pkg" ≠ [] := by
    rintro h
    rw [List.replicate_eq_nil_iff] at h
    subst h
    exact absurd hn (by decide)
  have hshort := hfit "contracts" (by decide) _ hlisted (Files.passesCache_cache (by decide) hne)
  have hpkg : ∀ x ∈ List.replicate n "pkg", 3 ≤ x.utf8ByteSize := by
    intro x hx
    rw [List.eq_of_mem_replicate hx]
    decide
  have hlong := Path.utf8ByteSize_text_below (p := (project.child "contracts").child cacheName) (Or.inl (by decide)) hpkg
  rw [List.length_replicate] at hlong
  omega

/-- A cache with a path that is too long. -/
def deep : List (String × Node) := nested 1500

theorem isCache_deep : IsCache deep := ⟨nested_wellFormed 1500, nested_linkCount 1500, by decide⟩

theorem not_cachesFit_deep : ¬CachesFit (cachedTree deep) project := not_cachesFit_nested (by decide)

end DependencyCaches

/-- A package in a cache, with a contract in it that is not named as it should be, does not show; directories in a cache that are
nested too deeply leave one diagnostic of the project. -/
theorem lint_sameOutsideCaches_package :
    (lint (DependencyCaches.cachedTree DependencyCaches.package) {} characteristicDirs (.absolute [])).outcome =
        (lint (DependencyCaches.cachedTree []) {} characteristicDirs (.absolute [])).outcome ∧
      ∃ e, (checkProject (DependencyCaches.cachedTree DependencyCaches.deep) {} characteristicDirs (.absolute [])
        DependencyCaches.project).outcome =
          .ok [failureDiagnostic (relativeLocation DependencyCaches.project (.absolute [])) e] := by
  have hdeclared : ∀ {cached : List (String × Node)}, DependencyCaches.IsCache cached → ∀ found,
      (Discovery.discover (DependencyCaches.cachedTree cached) {} (.absolute [])).outcome = .ok found →
        ∀ p ∈ found.validRoots, DependencyCaches.DeclaresOutside (DependencyCaches.cachedTree cached) p := by
    intro cached h found hfound p hp
    rw [DependencyCaches.eq_project_of_mem h hfound hp]
    exact DependencyCaches.declaresOutside_cachedTree h
  constructor
  · have hpackage := DependencyCaches.isCache_package
    have hfits : DependencyCaches.CachesFit (DependencyCaches.cachedTree DependencyCaches.package) DependencyCaches.project ∧
        DependencyCaches.CachesFit (DependencyCaches.cachedTree []) DependencyCaches.project := by decide +kernel
    refine (lint_sameOutsideCaches (hpackage.same .empty) (DependencyCaches.resolve_cachedTree _)
      (DependencyCaches.modules_agree hpackage .empty) (hdeclared hpackage)).1 fun found hfound p hp => ?_
    rw [DependencyCaches.eq_project_of_mem hpackage hfound hp]
    exact hfits
  · have hdeep := DependencyCaches.isCache_deep
    obtain ⟨found, hfound, hroots⟩ := DependencyCaches.discover_cachedTree hdeep
    exact (lint_sameOutsideCaches (hdeep.same .empty) (DependencyCaches.resolve_cachedTree _)
      (DependencyCaches.modules_agree hdeep .empty) (hdeclared hdeep)).2 found hfound DependencyCaches.project
      (by rw [hroots]; exact List.mem_singleton_self _) DependencyCaches.not_cachesFit_deep

/-- A cache takes the place of all that is reported of its project when the directories in it are nested too deeply: the two trees
differ in nothing else, they agree on the installed module in every directory, no file declares a path into a cache, and yet a
diagnostic is reported in one of them only. -/
theorem lint_shows_cache :
    ∃ report report' : LintReport,
      SameOutsideCaches DependencyCaches.cacheName [] (DependencyCaches.cachedTree [])
        (DependencyCaches.cachedTree DependencyCaches.deep) ∧
      (∀ position es, (DependencyCaches.cachedTree []).at? position = some (.dir es) →
        (DependencyCaches.cachedTree []).exists? ((Path.absolute position).join (Check.modulePath {})) =
          (DependencyCaches.cachedTree DependencyCaches.deep).exists? ((Path.absolute position).join (Check.modulePath {}))) ∧
      DependencyCaches.DeclaresOutside (DependencyCaches.cachedTree []) DependencyCaches.project ∧
      DependencyCaches.DeclaresOutside (DependencyCaches.cachedTree DependencyCaches.deep) DependencyCaches.project ∧
      (lint (DependencyCaches.cachedTree []) {} characteristicDirs (.absolute [])).outcome = .ok report ∧
      (lint (DependencyCaches.cachedTree DependencyCaches.deep) {} characteristicDirs (.absolute [])).outcome = .ok report' ∧
      report.diagnostics = [] ∧ report'.diagnostics.map (·.location) = ["w"] := by
  have hdeep := DependencyCaches.isCache_deep
  have hsame := DependencyCaches.IsCache.empty.same hdeep
  obtain ⟨es, hq⟩ := DependencyCaches.at?_cachedTree []
  have hmodules : ∀ c ∈ .absolute [] :: (DependencyCaches.cachedTree []).root.descendants (.absolute []),
      (DependencyCaches.cachedTree []).exists? (c.join (Check.modulePath {})) =
        (DependencyCaches.cachedTree DependencyCaches.deep).exists? (c.join (Check.modulePath {})) := by decide +kernel
  obtain ⟨found, hfound, hroots⟩ := DependencyCaches.discover_cachedTree hdeep
  obtain ⟨e, hproject⟩ := DependencyCaches.checkProject_of_not_fit hdeep.tree_wellFormed hsame.symm.noLinks
    (DependencyCaches.isVisible_project _) DependencyCaches.not_cachesFit_deep (.absolute [])
  have hclean : ((lint (DependencyCaches.cachedTree []) {} characteristicDirs (.absolute [])).outcome.toOption.map
      (·.diagnostics)) = some [] := by decide +kernel
  cases hreport : (lint (DependencyCaches.cachedTree []) {} characteristicDirs (.absolute [])).outcome with
  | error e =>
    rw [hreport] at hclean
    nomatch hclean
  | ok report =>
    rw [hreport] at hclean
    obtain ⟨root, beside, found', inside, hroot, hbeside, hfound', -, rfl⟩ := lint_eq_ok.1 hreport
    rw [DependencyCaches.resolve_cachedTree] at hroot
    cases hroot
    rw [DependencyCaches.surroundings_eq hsame hq] at hbeside
    rw [DependencyCaches.outcome_discover hsame hq (DependencyCaches.modules_agree .empty hdeep), hfound] at hfound'
    cases hfound'
    have hinside : (Logged.collect (checkProject (DependencyCaches.cachedTree DependencyCaches.deep) {} characteristicDirs
        (.absolute [])) found.validRoots).outcome =
          .ok [failureDiagnostic (relativeLocation DependencyCaches.project (.absolute [])) e] := by
      rw [hroots, Logged.outcome_collect_cons, hproject, Logged.outcome_collect_nil]
      rfl
    obtain ⟨hnone, -⟩ := List.append_eq_nil_iff.1 (Option.some.inj hclean)
    refine ⟨_, _, hsame, fun position es hes => hmodules _ (List.mem_cons.2 ?_),
      DependencyCaches.declaresOutside_cachedTree .empty, DependencyCaches.declaresOutside_cachedTree hdeep, rfl,
      lint_eq_ok.2 ⟨_, _, _, _, DependencyCaches.resolve_cachedTree _, hbeside, hfound, hinside, rfl⟩, Option.some.inj hclean, ?_⟩
    · by_cases hnil : position = []
      · exact Or.inl (by rw [hnil])
      · exact Or.inr (Node.below_mem_descendants hnil hes)
    · rw [hnone]
      rfl

end WorkspaceLint
