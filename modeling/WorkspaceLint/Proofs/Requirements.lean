import WorkspaceLint.Proofs.Candidates
import WorkspaceLint.Proofs.ShownLocations

/-!
# What a project needs

A directory with a manifest has to meet three requirements, each of which is looked at whatever became of the others, and each that
fails gives one diagnostic. What the directory is taken for, and what a discovery reports, follow from the same requirements
(`classify_exact`): a project meets all three, a broken scaffold is what something is reported of, and of nothing else is anything
reported.
-/

namespace WorkspaceLint

open Files (FileSystem)

namespace Check

/-- What a project needs. -/
inductive Requirement where
  /-- A manifest that declares the required dependency. -/
  | manifest
  /-- The configuration file. -/
  | config
  /-- The installed module. -/
  | module
deriving DecidableEq

/-- The requirements, in the order in which they are looked at. -/
def Requirement.all : List Requirement := [.manifest, .config, .module]

/-- A manifest declares the required dependency: one of the sections is a map with a value for it that counts as given. -/
def DeclaresDependency (rules : Rules) (manifest : Value) : Prop :=
  ∃ name ∈ rules.dependencySections, ∃ entries version, manifest.get? name = some (.map entries) ∧
    (Value.map entries).get? rules.requiredDependency = some version ∧ version.isGiven = true

/-- A requirement is met. -/
def Requirement.Holds (fs : FileSystem) (rules : Rules) (project : Path) : Requirement → Prop
  | .manifest => ∃ fields, loadJson fs (project.join (Path.ofString rules.manifestName)) = .ok (.ok (.map fields)) ∧
      DeclaresDependency rules (.map fields)
  | .config => fs.exists? (project.join (Path.ofString rules.requiredConfig)) = .ok true
  | .module => fs.exists? (project.join (modulePath rules)) = .ok true

/-- The location that a failed requirement is reported at. -/
def Requirement.location (rules : Rules) (scanRoot project : Path) : Requirement → String
  | .manifest => relativeLocation (project.join (Path.ofString rules.manifestName)) scanRoot
  | .config => relativeLocation project scanRoot
  | .module => relativeLocation project scanRoot

/-- What the message for a failed requirement may name: the manifest, if it cannot be loaded, or the dependency; the configuration
file; the module. -/
def Requirement.subjects (rules : Rules) : Requirement → List String
  | .manifest => [rules.manifestName, rules.requiredDependency]
  | .config => [rules.requiredConfig]
  | .module => [(modulePath rules).text]

/-- A diagnostic is the one for a requirement. -/
structure IsFault (rules : Rules) (scanRoot project : Path) (q : Requirement) (d : Diagnostic) : Prop where
  /-- It is about the structure of the project. -/
  kind : d.kind = .structureInvalid
  /-- It is about the place of the requirement. -/
  location : d.location = q.location rules scanRoot project
  /-- Its message names what is wrong. -/
  subject : ∃ subject ∈ q.subjects rules, Shows d.message subject

section Requirements

variable {fs : FileSystem} {rules : Rules} {scanRoot project : Path}

theorem declaresDependency_iff {manifest : Value} : declaresDependency rules manifest = true ↔ DeclaresDependency rules manifest := by
  rw [declaresDependency, List.any_eq_true]
  refine exists_congr fun name => and_congr_right fun _ => ?_
  constructor
  · intro h
    split at h
    · rename_i entries hentries
      obtain ⟨version, hversion, hgiven⟩ := (Option.any_eq_true _ _).1 h
      exact ⟨entries, version, hentries, hversion, hgiven⟩
    · nomatch h
  · rintro ⟨entries, version, hentries, hversion, hgiven⟩
    rw [hentries]
    exact (Option.any_eq_true _ _).2 ⟨version, hversion, hgiven⟩

instance (rules : Rules) (manifest : Value) : Decidable (DeclaresDependency rules manifest) :=
  decidable_of_iff _ declaresDependency_iff

/-- What is loaded as a map is what is loaded, if that is a map. -/
theorem loadJsonMap_eq_ok_iff {path : Path} {v : Value} :
    loadJsonMap fs path = .ok (.ok v) ↔ loadJson fs path = .ok (.ok v) ∧ v.isMap = true := by
  rw [loadJsonMap]
  cases loadJson fs path with
  | error e => simp [Except.map]
  | ok loaded =>
    cases loaded with
    | error fault => simp [Except.map, Except.bind]
    | ok w =>
      cases hw : w.isMap with
      | true =>
        simp only [Except.map, Except.bind, hw, if_true, Except.ok.injEq]
        exact ⟨fun h => ⟨h, h ▸ hw⟩, And.left⟩
      | false =>
        simp only [Except.map, Except.bind, hw, Bool.false_eq_true, if_false, Except.ok.injEq]
        constructor
        · intro h
          cases h
        · rintro ⟨rfl, hmap⟩
          rw [hw] at hmap
          cases hmap

/-- The requirement of the manifest is met by what is loaded from it. -/
theorem holds_manifest_iff : Requirement.Holds fs rules project .manifest ↔
    ∃ v, loadJsonMap fs (project.join (Path.ofString rules.manifestName)) = .ok (.ok v) ∧ DeclaresDependency rules v := by
  simp only [loadJsonMap_eq_ok_iff]
  constructor
  · rintro ⟨fields, hload, hdeclares⟩
    exact ⟨.map fields, ⟨hload, rfl⟩, hdeclares⟩
  · rintro ⟨v, ⟨hload, hmap⟩, hdeclares⟩
    cases v with
    | map fields => exact ⟨fields, hload, hdeclares⟩
    | _ => nomatch hmap

instance (fs : FileSystem) (rules : Rules) (project : Path) : DecidablePred (Requirement.Holds fs rules project)
  | .manifest =>
    match h : loadJsonMap fs (project.join (Path.ofString rules.manifestName)) with
    | .ok (.ok v) => decidable_of_iff (DeclaresDependency rules v) (by simp [holds_manifest_iff, h])
    | .ok (.error fault) => isFalse (by simp [holds_manifest_iff, h])
    | .error e => isFalse (by simp [holds_manifest_iff, h])
  | .config => inferInstanceAs (Decidable (_ = _))
  | .module => inferInstanceAs (Decidable (_ = _))

/-- The requirements that are not met, in order. -/
def failed (fs : FileSystem) (rules : Rules) (project : Path) : List Requirement :=
  Requirement.all.filter fun q => ¬q.Holds fs rules project

theorem failed_eq_nil_iff : failed fs rules project = [] ↔ ∀ q, Requirement.Holds fs rules project q := by
  rw [failed, List.filter_eq_nil_iff]
  simp only [decide_eq_true_eq, not_not]
  exact ⟨fun h q => h q (by cases q <;> decide), fun h q _ => h q⟩

/-! ## One requirement -/

/-- A diagnostic about the structure of a project is one for a requirement, if its message shows what the requirement is about. -/
theorem isFault_structureDiagnostic (q : Requirement) {subject message : String} (hsubject : subject ∈ q.subjects rules)
    (h : Shows message subject) : IsFault rules scanRoot project q (structureDiagnostic (q.location rules scanRoot project) message) :=
  ⟨rfl, rfl, subject, hsubject, h⟩

/-- A requirement that is met gives nothing. -/
theorem forall₂_of_holds {q : Requirement} (h : q.Holds fs rules project) :
    List.Forall₂ (IsFault rules scanRoot project) ([q].filter fun q => ¬q.Holds fs rules project) [] := by
  rw [List.filter_cons_of_neg (by simpa using h)]
  exact List.Forall₂.nil

/-- A requirement that is not met gives its diagnostic. -/
theorem forall₂_of_not_holds {q : Requirement} {d : Diagnostic} (h : ¬q.Holds fs rules project)
    (hd : IsFault rules scanRoot project q d) :
    List.Forall₂ (IsFault rules scanRoot project) ([q].filter fun q => ¬q.Holds fs rules project) [d] := by
  rw [List.filter_cons_of_pos (by simpa using h)]
  exact List.Forall₂.cons hd List.Forall₂.nil

theorem forall₂_manifest {ds : List Diagnostic} (h : (Check.manifest fs rules scanRoot project).outcome = .ok ds) :
    List.Forall₂ (IsFault rules scanRoot project) ([.manifest].filter fun q => ¬Requirement.Holds fs rules project q) ds := by
  obtain ⟨loaded, hloaded, h⟩ := Logged.bind_eq_ok.1 h
  rw [Logged.outcome_ofExcept] at hloaded
  cases loaded with
  | error fault =>
    have hno : ¬Requirement.Holds fs rules project .manifest := by simp [holds_manifest_iff, hloaded]
    cases h
    refine forall₂_of_not_holds hno ⟨rfl, rfl, rules.manifestName, List.mem_cons_self, ?_⟩
    exact (((Shows.refl _).append_left _).append_right _).append_right _
  | ok v =>
    cases h
    by_cases hdeclares : declaresDependency rules v = true
    · rw [if_pos hdeclares]
      exact forall₂_of_holds (holds_manifest_iff.2 ⟨v, hloaded, declaresDependency_iff.1 hdeclares⟩)
    · have hno : ¬Requirement.Holds fs rules project .manifest := by
        simpa [holds_manifest_iff, hloaded, ← declaresDependency_iff] using hdeclares
      rw [if_neg hdeclares]
      refine forall₂_of_not_holds hno ⟨rfl, rfl, rules.requiredDependency, List.mem_cons_of_mem _ List.mem_cons_self, ?_⟩
      exact ((Shows.refl _).append_left _).append_right _

/-- What has to exist gives a diagnostic when it does not. -/
theorem forall₂_required {q : Requirement} {path : Path} {d : Diagnostic} {ds : List Diagnostic}
    (hq : q.Holds fs rules project ↔ fs.exists? path = .ok true) (hd : IsFault rules scanRoot project q d)
    (h : (required fs path d).outcome = .ok ds) :
    List.Forall₂ (IsFault rules scanRoot project) ([q].filter fun q => ¬q.Holds fs rules project) ds := by
  obtain ⟨there, hthere, rfl⟩ := required_eq_ok.1 h
  cases there with
  | true => exact forall₂_of_holds (hq.2 hthere)
  | false =>
    refine forall₂_of_not_holds (fun hholds => ?_) hd
    rw [hq.1 hholds] at hthere
    nomatch hthere

/-! ## All of them -/

/-- What is reported of the structure of a project is one diagnostic for each requirement that is not met, in order. -/
theorem forall₂_structureOf {ds : List Diagnostic} (h : (structureOf fs rules scanRoot project).outcome = .ok ds) :
    List.Forall₂ (IsFault rules scanRoot project) (failed fs rules project) ds := by
  simp only [structureOf, Logged.bind_eq_ok] at h
  obtain ⟨ofManifest, hmanifest, ofConfig, hconfig, ofModule, hmodule, h⟩ := h
  cases h
  have hofConfig := forall₂_required Iff.rfl
    (isFault_structureDiagnostic .config List.mem_cons_self (((Shows.refl _).append_left _).append_right _)) hconfig
  have hofModule := forall₂_required Iff.rfl (isFault_structureDiagnostic .module List.mem_cons_self
    (((((Shows.refl _).append_left _).append_right _).append_right _).append_right _)) hmodule
  have hparts := List.rel_append (List.rel_append (forall₂_manifest hmanifest) hofConfig) hofModule
  dsimp only at hparts
  rwa [← List.filter_append, ← List.filter_append] at hparts

/-- Nothing is reported of the structure of a project when it has all that it needs. -/
theorem structureOf_eq_nil_iff {ds : List Diagnostic} (h : (structureOf fs rules scanRoot project).outcome = .ok ds) :
    ds = [] ↔ ∀ q, Requirement.Holds fs rules project q := by
  rw [← failed_eq_nil_iff, ← List.length_eq_zero_iff, ← List.length_eq_zero_iff, (forall₂_structureOf h).length_eq]

end Requirements

end Check

namespace Discovery

variable {fs : FileSystem} {rules : Rules} {scanRoot d : Path}

/-- A directory has a manifest. -/
def HasManifest (fs : FileSystem) (rules : Rules) (d : Path) : Prop :=
  fs.isFile? (d.join (Path.ofString rules.manifestName)) = .ok true

/-- A directory has one of the directories by which a project is known. -/
def IsCharacterised (fs : FileSystem) (rules : Rules) (d : Path) : Prop :=
  ∃ name ∈ rules.characteristicDirs, fs.isDir? (d.join (Path.ofString name)) = .ok true

/-- A candidate is classified as what its directory is. -/
structure IsClassified (fs : FileSystem) (rules : Rules) (d : Path) (c : Candidate) : Prop where
  /-- It is about the directory. -/
  root : c.root = d
  /-- A project has a manifest and all that it needs. -/
  valid : c.classification = .valid ↔ HasManifest fs rules d ∧ ∀ q, Check.Requirement.Holds fs rules d q
  /-- A directory with neither a manifest nor a directory by which a project is known is no project at all. -/
  ignorable : c.classification = .ignorable ↔ ¬HasManifest fs rules d ∧ ¬IsCharacterised fs rules d
  /-- A broken scaffold has a manifest and lacks something it needs, or is known by a directory and has no manifest. -/
  brokenScaffold : c.classification = .brokenScaffold ↔
    (HasManifest fs rules d ∧ ¬∀ q, Check.Requirement.Holds fs rules d q) ∨ ¬HasManifest fs rules d ∧ IsCharacterised fs rules d

/-- The directories by which a project is known are looked up, and the ones that are there kept. -/
theorem isCharacterised_iff {existing : List String} (h : Files.namesBelow fs.isDir? d rules.characteristicDirs = .ok existing) :
    IsCharacterised fs rules d ↔ existing ≠ [] :=
  (Files.ne_nil_iff_of_namesBelow h).symm

theorem isClassified_of_classify {c : Candidate} {ds : List Diagnostic} (h : (classify fs rules scanRoot d).outcome = .ok (c, ds)) :
    IsClassified fs rules d c := by
  obtain ⟨hasManifest, existing, hmanifest, hexisting, hds, rfl⟩ := classify_eq_ok.1 h
  have hthere : HasManifest fs rules d ↔ hasManifest = true := by rw [HasManifest, hmanifest, Except.ok.injEq]
  have hcharacterised := isCharacterised_iff hexisting
  cases hasManifest with
  | true =>
    have hcomplete := Check.structureOf_eq_nil_iff hds
    by_cases hnil : ds = [] <;> refine ⟨rfl, ?_, ?_, ?_⟩ <;> simp [classificationOf, hthere, ← hcomplete, hnil]
  | false =>
    by_cases hnil : existing = [] <;> refine ⟨rfl, ?_, ?_, ?_⟩ <;> simp [classificationOf, hthere, hcharacterised, hnil]

/-- Something is reported of a directory that is classified when it is a broken scaffold, and only then. -/
theorem brokenScaffold_iff_of_classify {c : Candidate} {ds : List Diagnostic}
    (h : (classify fs rules scanRoot d).outcome = .ok (c, ds)) : c.classification = .brokenScaffold ↔ ds ≠ [] := by
  obtain ⟨hasManifest, existing, -, -, hds, rfl⟩ := classify_eq_ok.1 h
  cases hasManifest with
  | true => by_cases hnil : ds = [] <;> simp [classificationOf, hnil]
  | false =>
    cases hds
    by_cases hnil : existing = [] <;> simp [classificationOf, hnil]

/-- For every tree, set of rules and scan root. What is reported of the structure of a directory is one diagnostic for each requirement
that is not met, in order. A directory is classified as a project when it has a manifest and all that it needs, as no project at all
when it has neither a manifest nor a directory by which a project is known, and as a broken scaffold otherwise. And what a discovery
reports is what is reported of its candidates, one after another: something of each broken scaffold, and nothing of any other. -/
theorem classify_exact (fs : FileSystem) (rules : Rules) (scanRoot : Path) :
    (∀ d ds, (Check.structureOf fs rules scanRoot d).outcome = .ok ds →
      List.Forall₂ (Check.IsFault rules scanRoot d) (Check.failed fs rules d) ds) ∧
    (∀ d c ds, (classify fs rules scanRoot d).outcome = .ok (c, ds) → IsClassified fs rules d c) ∧
    ∀ r, (discover fs rules scanRoot).outcome = .ok r → ∃ root parts, fs.resolve scanRoot = .ok root ∧
      List.Forall₂ (fun c ds => (classify fs rules root c.root).outcome = .ok (c, ds) ∧
        (c.classification = .brokenScaffold ↔ ds ≠ [])) r.candidates parts ∧
      r.diagnostics = parts.flatten ∧ (r.diagnostics = [] ↔ ∀ c ∈ r.candidates, c.classification ≠ .brokenScaffold) := by
  refine ⟨fun d ds h => Check.forall₂_structureOf h, fun d c ds h => isClassified_of_classify h, fun r h => ?_⟩
  obtain ⟨root, dirs, g, hroot, -, hg, rfl⟩ := discover_eq_ok.1 h
  have hbroken : ∀ d ∈ dirs, ((g d).1.classification = .brokenScaffold ↔ (g d).2 ≠ []) := fun d hd =>
    brokenScaffold_iff_of_classify (hg d hd)
  refine ⟨root, dirs.map fun d => (g d).2, hroot, ?_, List.flatMap_def, ?_⟩
  · rw [List.forall₂_map_left_iff, List.forall₂_map_right_iff, List.forall₂_same]
    intro d hd
    rw [root_of_classify (hg d hd)]
    exact ⟨hg d hd, hbroken d hd⟩
  · rw [List.flatMap_eq_nil_iff, List.forall_mem_map]
    exact forall₂_congr fun d hd => by rw [Ne, hbroken d hd, not_not]

end Discovery

namespace Requirements

/-- A directory with a manifest that declares nothing, with the configuration file and without the module. -/
def tree : FileSystem where
  entries := [("w", .dir [("blueprint.config.ts", .file []), ("package.json", .file (SampleTree.octetsOf "\x7b\x7d"))])]

/-- What is reported of it. -/
def faults : List Diagnostic :=
  [Check.structureDiagnostic "w/package.json" "未找到关键依赖 '@ton-ai-core/blueprint'。",
    Check.structureDiagnostic "w"
      "未找到本地 blueprint 安装 'node_modules/@ton-ai-core/blueprint'。是否已运行 'npm install'？"]

/-- What it is taken for. -/
def candidate : Candidate := ⟨.absolute ["w"], true, false, .brokenScaffold⟩

theorem classify_tree : (Discovery.classify tree {} (.absolute []) (.absolute ["w"])).outcome = .ok (candidate, faults) := by
  decide +kernel

theorem discover_tree : (Discovery.discover tree {} (.absolute [])).outcome = .ok ⟨[candidate], faults⟩ := by
  have hw : tree.WellFormed := by decide
  have hdirs : Discovery.candidateDirs tree {} (.absolute []) = .ok [.absolute ["w"]] :=
    Discovery.candidateDirs_of_pairwise (by decide +kernel) (List.pairwise_singleton _ _)
  exact Discovery.discover_eq_ok.2 ⟨.absolute [], [.absolute ["w"]], fun _ => (candidate, faults),
    hw.resolve_absolute (n := .dir tree.entries) rfl rfl, hdirs, List.forall_mem_singleton.2 classify_tree, rfl⟩

end Requirements

namespace Discovery

/-- The manifest and the module are reported, the directory is a broken scaffold, and the discovery reports it. -/
theorem classify_exact_tree :
    (Check.structureOf Requirements.tree {} (.absolute []) (.absolute ["w"])).outcome = .ok Requirements.faults ∧
      List.Forall₂ (Check.IsFault {} (.absolute []) (.absolute ["w"])) [.manifest, .module] Requirements.faults ∧
      ¬(∀ q, Check.Requirement.Holds Requirements.tree {} (.absolute ["w"]) q) ∧
      ∃ r, (discover Requirements.tree {} (.absolute [])).outcome = .ok r ∧ r.diagnostics ≠ [] := by
  obtain ⟨hstructure, hclassify, hdiscover⟩ := classify_exact Requirements.tree {} (.absolute [])
  have hrun : (Check.structureOf Requirements.tree {} (.absolute []) (.absolute ["w"])).outcome = .ok Requirements.faults := by
    decide +kernel
  have hfailed : Check.failed Requirements.tree {} (.absolute ["w"]) = [.manifest, .module] := by decide +kernel
  refine ⟨hrun, hfailed ▸ hstructure _ _ hrun, fun hall => ?_, _, Requirements.discover_tree, fun hnil => ?_⟩
  · have hthere : HasManifest Requirements.tree {} (.absolute ["w"]) := by
      unfold HasManifest
      decide +kernel
    nomatch (hclassify _ _ _ Requirements.classify_tree).valid.2 ⟨hthere, hall⟩
  · obtain ⟨-, -, -, -, -, hnone⟩ := hdiscover _ Requirements.discover_tree
    exact hnone.1 hnil Requirements.candidate (List.mem_singleton_self _) rfl

end Discovery

end WorkspaceLint
