import WorkspaceLint.Proofs.LintRun
import WorkspaceLint.Proofs.Manifests
import WorkspaceLint.Proofs.SampleTree

/-!
# One tree from two scan roots

A directory that the walk reaches from a scan root may be scanned itself: the discovery then finds the candidates that lie there,
in the same order and classified alike, and the checks of a project say the same about the same places (`discover_below`). Only
the way in which locations are written depends on the scan root.
-/

namespace WorkspaceLint

open Files (FileSystem Node IsEntryName pathBytesLimit)

variable {fs : FileSystem} {rules : Rules} {root root' : Path}

/-! ## What is reached from a directory that is reached -/

namespace Files.FileSystem

/-- A directory that is reached from a canonical path is one itself, along names that entries can have. -/
theorem Reaches.canonical (hw : fs.WellFormed) {keep : String → Bool} {directory : Path} {entries : List (String × Node)}
    (hroot : fs.resolve root = .ok root) (h : fs.Reaches keep root directory entries) :
    ∃ place, directory = .absolute place ∧ (∀ x ∈ place, IsEntryName x) ∧ fs.resolve directory = .ok directory := by
  obtain ⟨q, names, -, rfl, hplace, hat⟩ := h.exists_place hw hroot
  exact ⟨q ++ names, rfl, hplace, hw.resolve_absolute hat rfl⟩

/-- From a directory that is reached the walk reaches what it reaches below it. -/
theorem Reaches.below_iff (hw : fs.WellFormed) {keep : String → Bool} {es : List (String × Node)}
    (h : fs.Reaches keep root root' es) {directory : Path} {entries : List (String × Node)} :
    fs.Reaches keep root' directory entries ↔
      fs.Reaches keep root directory entries ∧ (directory.relativeTo? root').isSome = true := by
  obtain ⟨q, hroute⟩ := h.route hw
  obtain ⟨⟨n, names, hn, hat, hkeep, rfl⟩, hlen⟩ := h
  have hstat : fs.stat? (root.below names) = .ok (.dir es) := stat?_eq_ok.2 ⟨hlen, q, hroute⟩
  constructor
  · rintro ⟨⟨m, more, hm, hat', hkeep', rfl⟩, hshort⟩
    rw [hstat] at hm
    cases hm
    refine ⟨⟨⟨n, names ++ more, hn, ?_, ?_, Path.below_below root names more⟩, hshort⟩, ?_⟩
    · rw [Node.at?_append, hat]
      exact hat'
    · intro x hx
      exact (List.mem_append.1 hx).elim (hkeep x) (hkeep' x)
    · rw [Path.below_relativeTo?]
      rfl
  · rintro ⟨⟨⟨m, all, hm, hat', hkeep', rfl⟩, hshort⟩, hbelow⟩
    rw [hn] at hm
    cases hm
    obtain ⟨r, hr⟩ := Option.isSome_iff_exists.1 hbelow
    obtain ⟨-, hall⟩ := Path.relativeTo?_eq_some hr
    rw [Path.below_below, Path.below_inj] at hall
    subst hall
    refine ⟨⟨_, r.parts, hstat, ?_, fun x hx => hkeep' x (List.mem_append_right _ hx),
      (Path.below_below root names r.parts).symm⟩, hshort⟩
    rw [Node.at?_append, hat] at hat'
    exact hat'

end Files.FileSystem

/-! ## Candidates -/

namespace Discovery

/-- The projects of a discovery are reached from one path, along names of entries. -/
theorem exists_place_of_mem_validRoots (hw : fs.WellFormed) {scanRoot : Path} {found : Result}
    (h : (discover fs rules scanRoot).outcome = .ok found) : ∃ root, ∀ project ∈ found.validRoots, ∃ place es,
      project = .absolute place ∧ (∀ x ∈ place, IsEntryName x) ∧ fs.Reaches rules.enters root (.absolute place) es := by
  obtain ⟨root, dirs, g, hroot, hdirs, hg, rfl⟩ := discover_eq_ok.1 h
  refine ⟨root, fun project hproject => ?_⟩
  obtain ⟨c, hc, rfl⟩ := List.mem_map.1 hproject
  obtain ⟨d, hd, rfl⟩ := List.mem_map.1 (List.mem_filter.1 hc).1
  rw [root_of_classify (hg d hd)]
  obtain ⟨es, hreach, -⟩ := (mem_candidateDirs_iff hw hdirs).1 hd
  obtain ⟨place, rfl, hplace⟩ := hreach.exists_names hw hroot
  exact ⟨place, es, rfl, hplace, hreach⟩

/-- Whether something is reported of the structure of a project does not depend on the scan root. -/
theorem structureOf_scanRoot (fs : FileSystem) (rules : Rules) (root root' directory : Path) :
    Logged.RelatedBy (fun ds ds' => ds = [] ↔ ds' = []) (Check.structureOf fs rules root directory)
      (Check.structureOf fs rules root' directory) := by
  have hrequired : ∀ (path : Path) (d d' : Diagnostic),
      Logged.RelatedBy (fun ds ds' => ds = [] ↔ ds' = []) (Check.required fs path d) (Check.required fs path d') := by
    intro path d d'
    rw [Check.required, Check.required]
    cases fs.exists? path with
    | error e => exact Or.inl ⟨e, rfl, rfl⟩
    | ok there => cases there <;> exact Or.inr ⟨_, _, rfl, rfl, by simp⟩
  have hmanifest : Logged.RelatedBy (fun ds ds' => ds = [] ↔ ds' = []) (Check.manifest fs rules root directory)
      (Check.manifest fs rules root' directory) := by
    rw [Check.manifest, Check.manifest]
    refine Logged.RelatedBy.bind_of_eq rfl fun loaded _ => ?_
    cases loaded with
    | error fault => exact Or.inr ⟨_, _, rfl, rfl, by simp⟩
    | ok v =>
      refine Or.inr ⟨_, _, rfl, rfl, ?_⟩
      split <;> simp
  rw [Check.structureOf, Check.structureOf]
  refine Logged.RelatedBy.bind hmanifest fun ds ds' _ _ h => ?_
  refine Logged.RelatedBy.bind (hrequired _ _ _) fun ds₁ ds₁' _ _ h₁ => ?_
  refine Logged.RelatedBy.bind (hrequired _ _ _) fun ds₂ ds₂' _ _ h₂ => ?_
  exact Or.inr ⟨_, _, rfl, rfl, by simp [h, h₁, h₂]⟩

/-- What a directory is classified as does not depend on the scan root. -/
theorem classify_scanRoot {directory : Path} {p : Candidate × List Diagnostic}
    (h : (classify fs rules root directory).outcome = .ok p) (root' : Path) :
    ∃ p', (classify fs rules root' directory).outcome = .ok p' ∧ p'.1 = p.1 := by
  obtain ⟨c, ds⟩ := p
  obtain ⟨hasManifest, existing, hmanifest, hexisting, hds, rfl⟩ := classify_eq_ok.1 h
  cases hasManifest with
  | false => exact ⟨_, classify_eq_ok.2 ⟨false, existing, hmanifest, hexisting, rfl, rfl⟩, by simp [classificationOf]⟩
  | true =>
    obtain ⟨e, he, -⟩ | ⟨ds₁, ds', hds₁, hds', hsame⟩ := structureOf_scanRoot fs rules root root' directory
    · rw [if_pos rfl, he] at hds
      nomatch hds
    · rw [if_pos rfl, hds₁] at hds
      cases hds
      exact ⟨_, classify_eq_ok.2 ⟨true, existing, hmanifest, hexisting, hds', rfl⟩, by simp [classificationOf, hsame]⟩

variable {es : List (String × Node)} {dirs dirs' : List Path}

/-- The candidate directories of a directory that is reached are those that lie there, in the same order. -/
theorem candidateDirs_below (hw : fs.WellFormed) (hroot : fs.resolve root = .ok root)
    (hreach : fs.Reaches rules.enters root root' es) (hdirs : candidateDirs fs rules root = .ok dirs)
    (hdirs' : candidateDirs fs rules root' = .ok dirs') :
    dirs' = dirs.filter fun d => (d.relativeTo? root').isSome := by
  obtain ⟨place', rfl, -, -⟩ := hreach.canonical hw hroot
  have hmem : ∀ d, d ∈ dirs' ↔ d ∈ dirs.filter fun d => (d.relativeTo? (.absolute place')).isSome := by
    intro d
    rw [List.mem_filter, mem_candidateDirs_iff hw hdirs']
    constructor
    · rintro ⟨entries, hr, hc⟩
      obtain ⟨hr, hbelow⟩ := (hreach.below_iff hw).1 hr
      exact ⟨(mem_candidateDirs_iff hw hdirs).2 ⟨entries, hr, hc⟩, hbelow⟩
    · rintro ⟨hd, hbelow⟩
      obtain ⟨entries, hr, hc⟩ := (mem_candidateDirs_iff hw hdirs).1 hd
      exact ⟨entries, (hreach.below_iff hw).2 ⟨hr, hbelow⟩, hc⟩
  have hanchor : ∀ d ∈ dirs', d.anchor = .root := by
    intro d hd
    obtain ⟨entries, ⟨⟨n, names, -, -, -, rfl⟩, -⟩, -⟩ := (mem_candidateDirs_iff hw hdirs').1 hd
    rfl
  have hperm : dirs'.Perm (dirs.filter fun d => (d.relativeTo? (.absolute place')).isSome) :=
    (List.perm_ext_iff_of_nodup (candidateDirs_nodup hdirs') ((candidateDirs_nodup hdirs).filter _)).2 hmem
  rw [← Path.sort_eq_self (candidateDirs_pairwise hdirs'), ← Path.sort_eq_self ((candidateDirs_pairwise hdirs).filter _)]
  exact Path.sort_eq_of_perm hperm hanchor

/-- The discovery from a directory that is reached succeeds, with the candidates that lie there. -/
theorem discover_candidates_below (hw : fs.WellFormed) (hroot : fs.resolve root = .ok root)
    (hreach : fs.Reaches rules.enters root root' es) {r : Result} (hr : (discover fs rules root).outcome = .ok r) :
    ∃ r', (discover fs rules root').outcome = .ok r' ∧
      r'.candidates = r.candidates.filter fun c => (c.root.relativeTo? root').isSome := by
  obtain ⟨_, dirs, g, hroot₁, hdirs, hg, rfl⟩ := discover_eq_ok.1 hr
  rw [hroot] at hroot₁
  cases hroot₁
  obtain ⟨place', rfl, hplace', hroot'⟩ := hreach.canonical hw hroot
  obtain ⟨dirs', hdirs'⟩ := exists_candidateDirs fs rules (Files.nul_not_mem_absolute hplace')
  have hbelow := candidateDirs_below hw hroot hreach hdirs hdirs'
  have hclassified : ∀ d ∈ dirs', ∃ p', (classify fs rules (.absolute place') d).outcome = .ok p' ∧ p'.1 = (g d).1 := by
    intro d hd
    rw [hbelow] at hd
    exact classify_scanRoot (hg d (List.mem_filter.1 hd).1) _
  obtain ⟨r', hr'⟩ := (exists_discover_iff hroot' hdirs').2 fun d hd =>
    (hclassified d hd).imp fun _ h => h.1
  refine ⟨r', hr', ?_⟩
  obtain ⟨_, dirs₁, g', hroot₁, hdirs₁, hg', rfl⟩ := discover_eq_ok.1 hr'
  rw [hroot'] at hroot₁
  cases hroot₁
  rw [hdirs'] at hdirs₁
  cases hdirs₁
  have hsame : ∀ d ∈ dirs', (g' d).1 = (g d).1 := by
    intro d hd
    obtain ⟨p', hp', he⟩ := hclassified d hd
    rw [hg' d hd] at hp'
    cases hp'
    exact he
  have hfilter : dirs.filter ((fun c : Candidate => (c.root.relativeTo? (.absolute place')).isSome) ∘ fun d => (g d).1) = dirs' := by
    rw [hbelow]
    refine List.filter_congr fun d hd => ?_
    rw [Function.comp_apply, root_of_classify (hg d hd)]
  dsimp only
  rw [List.filter_map, hfilter]
  exact List.map_congr_left hsame

end Discovery

/-! ## Checks of a project -/

/-- Two diagnostics, seen from two scan roots, say the same about the same place. -/
structure SamePlace (root root' : Path) (d d' : Diagnostic) : Prop where
  /-- They are of the same kind. -/
  kind : d.kind = d'.kind
  /-- They say the same. -/
  message : d.message = d'.message
  /-- Both messages name the place or neither does. -/
  namesLocation : d.namesLocation = d'.namesLocation
  /-- Their locations lead from the scan roots to the same path. -/
  place : root.join (Path.ofString d.location) = root'.join (Path.ofString d'.location)

/-- A diagnostic of a project says the same about the same place from every scan root. -/
theorem seenFrom_samePlace {project : Path} (ha : project.anchor ≠ .relative) (hparts : ∀ x ∈ project.parts, IsPart x)
    (root root' : Path) (d : Diagnostic) : SamePlace root root' (seenFrom root project d) (seenFrom root' project d) := by
  exact ⟨rfl, rfl, rfl, (join_seenFrom ha hparts d).trans (join_seenFrom ha hparts d).symm⟩

/-- From a directory that the discovery reaches it finds the candidates that lie there, in the same order and classified alike, and
the checks of each project there say the same about the same places, one diagnostic after the other. -/
theorem discover_below (hw : fs.WellFormed) (hroot : fs.resolve root = .ok root) {es : List (String × Node)}
    (hreach : fs.Reaches rules.enters root root' es) {r : Discovery.Result}
    (hr : (Discovery.discover fs rules root).outcome = .ok r) :
    fs.resolve root' = .ok root' ∧ ∃ r', (Discovery.discover fs rules root').outcome = .ok r' ∧
      (r'.candidates = r.candidates.filter fun c => (c.root.relativeTo? root').isSome) ∧
      ∀ project ∈ r.validRoots, (project.relativeTo? root').isSome = true → ∀ namingDirs found,
        (projectDiagnostics fs rules namingDirs project).outcome = .ok found →
          ∃ ds ds', (checkProject fs rules namingDirs root project).outcome = .ok ds ∧
            (checkProject fs rules namingDirs root' project).outcome = .ok ds' ∧ List.Forall₂ (SamePlace root root') ds ds' := by
  obtain ⟨r', hr', hcandidates⟩ := Discovery.discover_candidates_below hw hroot hreach hr
  obtain ⟨-, -, -, hroot'⟩ := hreach.canonical hw hroot
  refine ⟨hroot', r', hr', hcandidates, fun project hproject _ namingDirs found hfound => ?_⟩
  obtain ⟨_, hreached⟩ := Discovery.reaches_of_mem_validRoots hw hroot hr hproject
  obtain ⟨place, rfl, hplace, -⟩ := hreached.canonical hw hroot
  rw [outcome_checkProject, outcome_checkProject, hfound]
  refine ⟨_, _, rfl, rfl, ?_⟩
  rw [List.forall₂_map_left_iff, List.forall₂_map_right_iff]
  exact List.forall₂_same.2 fun d _ =>
    seenFrom_samePlace (by exact nofun) (fun x hx => (hplace x hx).isPart) root root' d

namespace ScanRoots

/-- A directory with a project in it. -/
def nestedTree : FileSystem where
  entries := [("w", .dir [("p", SampleTree.project [("scripts", .dir [("Deploy.ts", .file [])])])])]

theorem nestedTree_wellFormed : nestedTree.WellFormed := by decide

theorem nestedTree_resolve : nestedTree.resolve (.absolute []) = .ok (.absolute []) :=
  nestedTree_wellFormed.resolve_absolute (n := .dir nestedTree.entries) rfl rfl

theorem nestedTree_reaches : ∃ es, nestedTree.Reaches ({} : Rules).enters (.absolute []) (.absolute ["w"]) es :=
  ⟨_, ⟨_, ["w"], rfl, rfl, by decide, rfl⟩, by decide⟩

/-- The project that a script belongs to. -/
def project : Path := .absolute ["w", "p"]

end ScanRoots

/-- The project is found from both scan roots, and its script is reported at the same place. -/
theorem discover_below_nestedTree :
    ∃ r', (Discovery.discover ScanRoots.nestedTree {} (.absolute ["w"])).outcome = .ok r' ∧
      r'.candidates = [⟨ScanRoots.project, true, true, .valid⟩] ∧
      ∃ ds ds', (checkProject ScanRoots.nestedTree {} ["scripts"] (.absolute []) ScanRoots.project).outcome = .ok ds ∧
        (checkProject ScanRoots.nestedTree {} ["scripts"] (.absolute ["w"]) ScanRoots.project).outcome = .ok ds' ∧
        List.Forall₂ (SamePlace (.absolute []) (.absolute ["w"])) ds ds' := by
  have hrun : (Discovery.discover ScanRoots.nestedTree {} (.absolute [])).outcome.toOption.map (·.candidates) =
      some [⟨ScanRoots.project, true, true, .valid⟩] := by decide +kernel
  have hchecked : (projectDiagnostics ScanRoots.nestedTree {} ["scripts"] ScanRoots.project).outcome.toOption.map
      (·.map (·.location)) = some ["scripts/Deploy.ts"] := by decide +kernel
  obtain ⟨es, hreach⟩ := ScanRoots.nestedTree_reaches
  cases hr : (Discovery.discover ScanRoots.nestedTree {} (.absolute [])).outcome with
  | error e =>
    rw [hr] at hrun
    nomatch hrun
  | ok r =>
    cases hfound : (projectDiagnostics ScanRoots.nestedTree {} ["scripts"] ScanRoots.project).outcome with
    | error e =>
      rw [hfound] at hchecked
      nomatch hchecked
    | ok found =>
      rw [hr] at hrun
      have hcandidates : r.candidates = [⟨ScanRoots.project, true, true, .valid⟩] := Option.some.inj hrun
      obtain ⟨-, r', hr', hbelow, hchecks⟩ :=
        discover_below ScanRoots.nestedTree_wellFormed ScanRoots.nestedTree_resolve hreach hr
      have hproject : ScanRoots.project ∈ r.validRoots := by
        rw [Discovery.Result.validRoots, hcandidates]
        exact List.mem_singleton_self _
      refine ⟨r', hr', ?_, hchecks ScanRoots.project hproject rfl ["scripts"] found hfound⟩
      rw [hbelow, hcandidates]
      rfl

end WorkspaceLint
