import WorkspaceLint.Proofs.Discovery
import WorkspaceLint.Proofs.Files.Contents
import WorkspaceLint.Proofs.LongIntegers
import WorkspaceLint.Proofs.SampleTree

/-!
# What a manifest does to a discovery

A discovery runs to its end unless a name is too long to be looked up or a manifest meets an integer of too many digits; any other
manifest that is no map gives exactly one diagnostic at the place of the manifest, and what is found in other directories does not
depend on it (`discover_manifests`).
-/

namespace WorkspaceLint

open Files (FileSystem Node Found IsStep IsEntryName DifferOnlyAt)

namespace Check

variable {fs : FileSystem} {rules : Rules} {scanRoot project : Path}

/-! ## The manifest of a project -/

/-- A manifest that has no map gives one diagnostic, at its place. -/
theorem manifest_of_fault {fault : DataFileFault}
    (h : loadJsonMap fs (project.join (Path.ofString rules.manifestName)) = .ok (.error fault)) :
    (manifest fs rules scanRoot project).outcome =
      .ok [structureDiagnostic (relativeLocation (project.join (Path.ofString rules.manifestName)) scanRoot)
        ("无法读取或解析 '" ++ rules.manifestName ++ "': " ++ fault.reason)] := by
  rw [manifest, Logged.outcome_bind, Logged.outcome_ofExcept, h]
  rfl

/-- What is reported of a manifest is reported at its place. -/
theorem location_of_mem_manifest {ds : List Diagnostic} (h : (manifest fs rules scanRoot project).outcome = .ok ds) :
    ∀ d ∈ ds, d.location = relativeLocation (project.join (Path.ofString rules.manifestName)) scanRoot := by
  obtain ⟨loaded, -, h⟩ := Logged.bind_eq_ok.1 h
  cases loaded with
  | error fault =>
    cases h
    simp [structureDiagnostic]
  | ok v =>
    cases h
    split
    · simp
    · simp [structureDiagnostic]

theorem exists_manifest_iff :
    (∃ ds, (manifest fs rules scanRoot project).outcome = .ok ds) ↔
      ∃ loaded, loadJsonMap fs (project.join (Path.ofString rules.manifestName)) = .ok loaded := by
  constructor
  · rintro ⟨ds, h⟩
    obtain ⟨loaded, hloaded, -⟩ := Logged.bind_eq_ok.1 h
    exact ⟨loaded, hloaded⟩
  · rintro ⟨loaded, hloaded⟩
    rw [manifest, Logged.outcome_bind, Logged.outcome_ofExcept, hloaded]
    cases loaded with
    | error fault => exact ⟨_, rfl⟩
    | ok v => exact ⟨_, rfl⟩

theorem required_eq_ok {path : Path} {diagnostic : Diagnostic} {ds : List Diagnostic} :
    (required fs path diagnostic).outcome = .ok ds ↔
      ∃ there, fs.exists? path = .ok there ∧ ds = if there then [] else [diagnostic] := by
  rw [required, Logged.outcome_ofExcept]
  cases fs.exists? path with
  | error e => simp [Except.map]
  | ok there => simp [Except.map, eq_comm]

/-- The structure of a project is looked at in its manifest and in what has to be there beside it, which is reported at the
place of the project. -/
theorem structureOf_eq_ok {ds : List Diagnostic} (h : (structureOf fs rules scanRoot project).outcome = .ok ds) :
    ∃ ofManifest others, (manifest fs rules scanRoot project).outcome = .ok ofManifest ∧ ds = ofManifest ++ others ∧
      ∀ d ∈ others, d.location = relativeLocation project scanRoot := by
  simp only [structureOf, Logged.bind_eq_ok, required_eq_ok] at h
  obtain ⟨ofManifest, hm, -, ⟨config, -, rfl⟩, -, ⟨module, -, rfl⟩, h⟩ := h
  cases h
  refine ⟨ofManifest, _, hm, List.append_assoc .., fun d hd => ?_⟩
  rcases List.mem_append.1 hd with hd | hd
  all_goals
    split at hd
    · cases hd
    · rw [List.mem_singleton.1 hd]
      rfl

/-- What is reported of the structure of a project is a fault of the structure. -/
theorem kind_of_mem_structureOf {ds : List Diagnostic}
    (h : (structureOf fs rules scanRoot project).outcome = .ok ds) : ∀ d ∈ ds, d.kind = .structureInvalid := by
  simp only [structureOf, Logged.bind_eq_ok, required_eq_ok] at h
  obtain ⟨ofManifest, hmanifest, -, ⟨config, -, rfl⟩, -, ⟨module, -, rfl⟩, h⟩ := h
  cases h
  intro d hd
  rcases List.mem_append.1 hd with hd | hd
  · rcases List.mem_append.1 hd with hd | hd
    · obtain ⟨loaded, -, hmanifest⟩ := Logged.bind_eq_ok.1 hmanifest
      cases loaded with
      | error fault =>
        cases hmanifest
        rw [List.mem_singleton.1 hd]
        rfl
      | ok v =>
        cases hmanifest
        split at hd
        · cases hd
        · rw [List.mem_singleton.1 hd]
          rfl
    · split at hd
      · cases hd
      · rw [List.mem_singleton.1 hd]
        rfl
  · split at hd
    · cases hd
    · rw [List.mem_singleton.1 hd]
      rfl

/-- The structure of a project can be looked at when its manifest can be loaded and what has to be there can be looked up. -/
theorem exists_structureOf_iff :
    (∃ ds, (structureOf fs rules scanRoot project).outcome = .ok ds) ↔
      (∃ loaded, loadJsonMap fs (project.join (Path.ofString rules.manifestName)) = .ok loaded) ∧
        fs.CanLookUp (project.join (Path.ofString rules.requiredConfig)) ∧ fs.CanLookUp (project.join (modulePath rules)) := by
  rw [← exists_manifest_iff, ← FileSystem.exists_leadsTo_iff, ← FileSystem.exists_leadsTo_iff]
  simp only [structureOf, Logged.bind_eq_ok, required_eq_ok]
  constructor
  · rintro ⟨ds, ofManifest, hm, -, ⟨config, hc, -⟩, -, ⟨module, hmod, -⟩, -⟩
    exact ⟨⟨ofManifest, hm⟩, ⟨config, hc⟩, ⟨module, hmod⟩⟩
  · rintro ⟨⟨ofManifest, hm⟩, ⟨config, hc⟩, ⟨module, hmod⟩⟩
    exact ⟨_, ofManifest, hm, _, ⟨config, hc, rfl⟩, _, ⟨module, hmod, rfl⟩, rfl⟩

end Check

namespace Discovery

variable {fs fs' : FileSystem} {rules : Rules} {scanRoot root d : Path}

/-! ## Classification -/

/-- What a discovery looks up in a directory can be looked up. -/
structure CanClassify (fs : FileSystem) (rules : Rules) (d : Path) : Prop where
  /-- The manifest. -/
  manifest : fs.CanLookUp (d.join (Path.ofString rules.manifestName))
  /-- The directories by which a project is known. -/
  characteristicDirs : ∀ name ∈ rules.characteristicDirs, fs.CanLookUp (d.join (Path.ofString name))
  /-- What has to lie beside a manifest: the configuration file and the module. -/
  beside : fs.isFile? (d.join (Path.ofString rules.manifestName)) = .ok true →
    fs.CanLookUp (d.join (Path.ofString rules.requiredConfig)) ∧ fs.CanLookUp (d.join (Check.modulePath rules))

/-- A directory can be classified when what is looked up in it can be, and its manifest can be loaded. -/
theorem exists_classify_iff :
    (∃ p, (classify fs rules scanRoot d).outcome = .ok p) ↔ CanClassify fs rules d ∧
      (fs.isFile? (d.join (Path.ofString rules.manifestName)) = .ok true →
        ∃ loaded, loadJson fs (d.join (Path.ofString rules.manifestName)) = .ok loaded) := by
  constructor
  · rintro ⟨⟨c, ds⟩, h⟩
    obtain ⟨hasManifest, existing, hm, he, hs, -⟩ := classify_eq_ok.1 h
    have hstructure : fs.isFile? (d.join (Path.ofString rules.manifestName)) = .ok true →
        ∃ ds, (Check.structureOf fs rules scanRoot d).outcome = .ok ds := by
      intro hfile
      rw [hm] at hfile
      cases hfile
      exact ⟨ds, hs⟩
    refine ⟨⟨FileSystem.exists_leadsTo_iff.1 ⟨_, hm⟩, fun name hname => ?_, fun hfile => ?_⟩, fun hfile => ?_⟩
    · exact FileSystem.exists_leadsTo_iff.1 (Files.exists_namesBelow_iff.1 ⟨existing, he⟩ name hname)
    · exact (Check.exists_structureOf_iff.1 (hstructure hfile)).2
    · exact exists_loadJsonMap_iff.1 (Check.exists_structureOf_iff.1 (hstructure hfile)).1
  · rintro ⟨hlook, hload⟩
    obtain ⟨hasManifest, hm⟩ : ∃ b, fs.isFile? (d.join (Path.ofString rules.manifestName)) = .ok b :=
      FileSystem.exists_leadsTo_iff.2 hlook.manifest
    obtain ⟨existing, he⟩ : ∃ existing, Files.namesBelow fs.isDir? d rules.characteristicDirs = .ok existing :=
      Files.exists_namesBelow_iff.2 fun name hname => FileSystem.exists_leadsTo_iff.2 (hlook.characteristicDirs name hname)
    cases hasManifest with
    | false => exact ⟨_, classify_eq_ok.2 ⟨false, existing, hm, he, rfl, rfl⟩⟩
    | true =>
      obtain ⟨ds, hds⟩ := Check.exists_structureOf_iff.2 ⟨exists_loadJsonMap_iff.2 (hload hm), hlook.beside hm⟩
      exact ⟨_, classify_eq_ok.2 ⟨true, existing, hm, he, hds, rfl⟩⟩

/-- Two results list the same directories in the same order, and say the same of each directory that is not left out. -/
def SameBut (leftOut : Path → Bool) (r r' : Result) : Prop :=
  ∃ dirs : List Path, ∃ g g' : Path → Candidate × List Diagnostic,
    r = ⟨dirs.map fun d => (g d).1, dirs.flatMap fun d => (g d).2⟩ ∧
    r' = ⟨dirs.map fun d => (g' d).1, dirs.flatMap fun d => (g' d).2⟩ ∧
    ∀ d ∈ dirs, (g d).1.root = d ∧ (g' d).1.root = d ∧ (leftOut d = false → g d = g' d)

/-- The candidate directories do not depend on what files hold. -/
theorem candidateDirs_congr (h : Files.SameOutline fs fs') : candidateDirs fs rules root = candidateDirs fs' rules root := by
  rw [candidateDirs, candidateDirs, h.walkFrom]

/-! ## Places -/

/-- The canonical path of a directory is that of its position. -/
theorem resolve_of_isDir (h : fs.isDir? scanRoot = .ok true) :
    ∃ q es, fs.resolve scanRoot = .ok (.absolute q) ∧ fs.at? q = some (.dir es) := by
  obtain ⟨hnul, es, hs⟩ := FileSystem.isDir?_eq_true.1 h
  obtain ⟨-, q, hr⟩ := FileSystem.stat?_eq_ok.1 hs
  exact ⟨q, es, FileSystem.resolve_of_route hr hnul, (FileSystem.route_spec hr).1⟩

/-- A directory that is reached from a position has a path of names that entries can have. -/
theorem eq_absolute_of_reaches (hw : fs.WellFormed) {q : List String} {es entries : List (String × Node)}
    (hq : fs.at? q = some (.dir es)) (h : fs.Reaches rules.enters (.absolute q) d entries) :
    ∃ place, d = .absolute place ∧ ∀ x ∈ place, IsEntryName x := by
  obtain ⟨⟨n, names, hn, hat, -, rfl⟩, -⟩ := h
  obtain ⟨-, q', hr⟩ := FileSystem.stat?_eq_ok.1 hn
  have hself : fs.route (.absolute q) = .ok ⟨q, .dir es⟩ := FileSystem.route_of_at? hq (hw.isStep hq) rfl
  rw [hself] at hr
  cases hr
  have hplace : fs.at? (q ++ names) = some (.dir entries) := by
    rw [FileSystem.at?_append, hq]
    exact hat
  exact ⟨q ++ names, rfl, (Node.WellFormed.below hw hplace).2⟩

/-- What is reported of a directory is reported at its place, or at the place of its manifest when there is one. -/
theorem location_of_mem_classify {p : Candidate × List Diagnostic} (h : (classify fs rules scanRoot d).outcome = .ok p) :
    ∀ x ∈ p.2, x.location = relativeLocation d scanRoot ∨
      fs.isFile? (d.join (Path.ofString rules.manifestName)) = .ok true ∧
        x.location = relativeLocation (d.join (Path.ofString rules.manifestName)) scanRoot := by
  obtain ⟨c, ds⟩ := p
  obtain ⟨hasManifest, existing, hm, -, hs, -⟩ := classify_eq_ok.1 h
  intro x hx
  cases hasManifest with
  | false =>
    left
    cases hs
    dsimp only at hx
    split at hx
    · nomatch hx
    · rw [List.mem_singleton.1 hx]
      rfl
  | true =>
    obtain ⟨ofManifest, others, hmanifest, rfl, hothers⟩ := Check.structureOf_eq_ok hs
    rcases List.mem_append.1 hx with hx | hx
    · exact Or.inr ⟨hm, Check.location_of_mem_manifest hmanifest x hx⟩
    · exact Or.inl (hothers x hx)

/-- What is reported of a directory is a fault of its structure or says that it is a scaffold. -/
theorem kind_of_mem_classify {p : Candidate × List Diagnostic} (h : (classify fs rules scanRoot d).outcome = .ok p) :
    ∀ x ∈ p.2, x.kind = .structureInvalid ∨ x.kind = .brokenScaffold := by
  obtain ⟨c, ds⟩ := p
  obtain ⟨hasManifest, existing, -, -, hs, -⟩ := classify_eq_ok.1 h
  intro x hx
  cases hasManifest with
  | true => exact Or.inl (Check.kind_of_mem_structureOf hs x hx)
  | false =>
    right
    cases hs
    dsimp only at hx
    split at hx
    · nomatch hx
    · rw [List.mem_singleton.1 hx]
      rfl

/-- A directory with a manifest that has no map gives one diagnostic for that, and the others at its own place. -/
theorem classify_of_fault {fault : DataFileFault} {p : Candidate × List Diagnostic}
    (hfile : fs.isFile? (d.join (Path.ofString rules.manifestName)) = .ok true)
    (hfault : loadJsonMap fs (d.join (Path.ofString rules.manifestName)) = .ok (.error fault))
    (h : (classify fs rules scanRoot d).outcome = .ok p) :
    ∃ others, p.2 = Check.structureDiagnostic (relativeLocation (d.join (Path.ofString rules.manifestName)) scanRoot)
        ("无法读取或解析 '" ++ rules.manifestName ++ "': " ++ fault.reason) :: others ∧
      ∀ x ∈ others, x.location = relativeLocation d scanRoot := by
  obtain ⟨c, ds⟩ := p
  obtain ⟨hasManifest, existing, hm, -, hs, -⟩ := classify_eq_ok.1 h
  rw [hfile] at hm
  cases hm
  obtain ⟨ofManifest, others, hmanifest, rfl, hothers⟩ := Check.structureOf_eq_ok hs
  rw [Check.manifest_of_fault hfault] at hmanifest
  cases hmanifest
  exact ⟨others, rfl, hothers⟩

/-- A list of results in a row, when only one member of the list gives any. -/
theorem flatMap_eq_of_unique {α β : Type} {l : List α} {f : α → List β} {a : α} (hl : l.Nodup) (ha : a ∈ l)
    (h : ∀ b ∈ l, b ≠ a → f b = []) : l.flatMap f = f a := by
  obtain ⟨s, t, rfl⟩ := List.append_of_mem ha
  have hst := List.nodup_middle.1 hl
  rw [List.nodup_cons] at hst
  have hs : s.flatMap f = [] := List.flatMap_eq_nil_iff.2 fun b hb =>
    h b (List.mem_append_left _ hb) fun he => hst.1 (List.mem_append_left _ (he ▸ hb))
  have ht : t.flatMap f = [] := List.flatMap_eq_nil_iff.2 fun b hb =>
    h b (List.mem_append_right _ (List.mem_cons_of_mem _ hb)) fun he => hst.1 (List.mem_append_right _ (he ▸ hb))
  rw [List.flatMap_append, List.flatMap_cons, hs, ht, List.nil_append, List.append_nil]

/-- The location of a directory that is reached leads back to it, and so does the location of its manifest. -/
theorem join_location_of_reaches (hw : fs.WellFormed) (hname : IsEntryName rules.manifestName) {q : List String}
    {es entries : List (String × Node)} (hq : fs.at? q = some (.dir es))
    (h : fs.Reaches rules.enters (.absolute q) d entries) :
    (Path.absolute q).join (Path.ofString (relativeLocation d (.absolute q))) = d ∧
      (Path.absolute q).join (Path.ofString (relativeLocation (d.child rules.manifestName) (.absolute q))) =
        d.child rules.manifestName := by
  obtain ⟨place, rfl, hplace⟩ := eq_absolute_of_reaches hw hq h
  have hnames : ∀ x ∈ place ++ [rules.manifestName], IsEntryName x :=
    List.forall_mem_append.2 ⟨hplace, List.forall_mem_singleton.2 hname⟩
  exact ⟨Files.join_location_absolute hplace _, Files.join_location_absolute hnames _⟩

/-- No null character stands in the path of the manifest of a directory that is reached. -/
theorem nul_not_mem_manifest (hw : fs.WellFormed) (hname : IsEntryName rules.manifestName) {q : List String}
    {es entries : List (String × Node)} (hq : fs.at? q = some (.dir es))
    (h : fs.Reaches rules.enters (.absolute q) d entries) : '\x00' ∉ (d.child rules.manifestName).text.toList := by
  obtain ⟨place, rfl, hplace⟩ := eq_absolute_of_reaches hw hq h
  have hnames : ∀ x ∈ place ++ [rules.manifestName], IsEntryName x :=
    List.forall_mem_append.2 ⟨hplace, List.forall_mem_singleton.2 hname⟩
  exact Files.nul_not_mem_absolute hnames

/-- No directory that is reached has the location of a manifest that is a file. -/
theorem location_ne_manifest (hw : fs.WellFormed) (hname : IsEntryName rules.manifestName) {q : List String}
    {es entries entries' : List (String × Node)} (hq : fs.at? q = some (.dir es))
    (hd : fs.Reaches rules.enters (.absolute q) d entries) (hfile : fs.isFile? (d.child rules.manifestName) = .ok true)
    {d' : Path} (hd' : fs.Reaches rules.enters (.absolute q) d' entries') :
    relativeLocation d' (.absolute q) ≠ relativeLocation (d.child rules.manifestName) (.absolute q) := by
  intro he
  have hsame : d' = d.child rules.manifestName := by
    rw [← (join_location_of_reaches hw hname hq hd').1, he, (join_location_of_reaches hw hname hq hd).2]
  obtain ⟨q', hroute⟩ := hd'.route hw
  obtain ⟨-, content, hs⟩ := FileSystem.isFile?_eq_true.1 hfile
  obtain ⟨-, q'', hroute'⟩ := FileSystem.stat?_eq_ok.1 hs
  rw [hsame, hroute'] at hroute
  nomatch hroute

/-- At the place of a manifest that has no map one diagnostic is reported, whatever the other directories hold. -/
theorem filter_location_of_fault (hw : fs.WellFormed) (hname : IsEntryName rules.manifestName) {q : List String}
    {es : List (String × Node)} (hq : fs.at? q = some (.dir es)) {dirs : List Path}
    (hdirs : candidateDirs fs rules (.absolute q) = .ok dirs) {g : Path → Candidate × List Diagnostic}
    (hg : ∀ d ∈ dirs, (classify fs rules (.absolute q) d).outcome = .ok (g d)) {entries : List (String × Node)}
    (hd : fs.Reaches rules.enters (.absolute q) d entries) (hfile : fs.isFile? (d.child rules.manifestName) = .ok true)
    {fault : DataFileFault} (hfault : loadJsonMap fs (d.child rules.manifestName) = .ok (.error fault)) :
    (dirs.flatMap fun d => (g d).2).filter (·.location = relativeLocation (d.child rules.manifestName) (.absolute q)) =
      [Check.structureDiagnostic (relativeLocation (d.child rules.manifestName) (.absolute q))
        ("无法读取或解析 '" ++ rules.manifestName ++ "': " ++ fault.reason)] := by
  have hjoin : ∀ d : Path, d.join (Path.ofString rules.manifestName) = d.child rules.manifestName := fun d =>
    Path.join_ofString_part hname.isPart
  have hmem : d ∈ dirs := (mem_candidateDirs_iff hw hdirs).2 (isCandidateDir_of_isFile hw hd hname.isStep hfile)
  rw [List.filter_flatMap, flatMap_eq_of_unique (candidateDirs_nodup hdirs) hmem]
  · obtain ⟨others, hothers, hplaces⟩ := classify_of_fault (by rwa [hjoin]) (by rwa [hjoin]) (hg d hmem)
    rw [hothers, hjoin, List.filter_cons, if_pos (by simp [Check.structureDiagnostic]), List.filter_eq_nil_iff.2]
    intro x hx
    rw [hplaces x hx, decide_eq_true_iff]
    exact location_ne_manifest hw hname hq hd hfile hd
  · intro d' hd' hne
    obtain ⟨es', hr', -⟩ := (mem_candidateDirs_iff hw hdirs).1 hd'
    rw [List.filter_eq_nil_iff]
    intro x hx
    rw [decide_eq_true_iff]
    rcases location_of_mem_classify (hg d' hd') x hx with hloc | ⟨-, hloc⟩
    · rw [hloc]
      exact location_ne_manifest hw hname hq hd hfile hr'
    · rw [hloc, hjoin]
      intro he
      have hsame : d'.child rules.manifestName = d.child rules.manifestName := by
        rw [← (join_location_of_reaches hw hname hq hr').2, he, (join_location_of_reaches hw hname hq hd).2]
      exact hne (by rw [← Path.child_parent d' rules.manifestName, hsame, Path.child_parent])

/-- Where two trees differ only in a file, the results of discoveries differ only for directories whose manifest leads to it. -/
theorem sameBut_of_differOnlyAt {fs' : FileSystem} {position : List String} (h : DifferOnlyAt position fs fs')
    (hname : IsEntryName rules.manifestName) {r r' : Result} (hr : (discover fs rules scanRoot).outcome = .ok r)
    (hr' : (discover fs' rules scanRoot).outcome = .ok r') :
    SameBut (fun d => fs.leadsAt (d.child rules.manifestName) position) r r' := by
  obtain ⟨root, dirs, g, hroot, hdirs, hg, rfl⟩ := discover_eq_ok.1 hr
  obtain ⟨root', dirs', g', hroot', hdirs', hg', rfl⟩ := discover_eq_ok.1 hr'
  rw [← h.sameShape.resolve, hroot] at hroot'
  cases hroot'
  rw [← candidateDirs_congr h.outline, hdirs] at hdirs'
  cases hdirs'
  refine ⟨dirs, g, g', rfl, rfl, fun d hd => ⟨?_, ?_, fun hl => ?_⟩⟩
  · exact root_of_classify (hg d hd)
  · exact root_of_classify (hg' d hd)
  · have hl' : fs.leadsAt (d.join (Path.ofString rules.manifestName)) position = false := by
      rw [Path.join_ofString_part hname.isPart]
      exact hl
    have hsame := hg d hd
    rw [classify_congr h.sameShape (h.text? hl'), hg' d hd] at hsame
    exact (Except.ok.inj hsame).symm

end Discovery

/-! ## Discovery -/

/-- A JSON file gives a value or a fault of the file unless it meets an integer of too many digits. A discovery runs to its end
unless a name is too long to be looked up or the manifest of a candidate meets such an integer. When it does, a manifest that has
no map gives exactly one diagnostic at its place, and what other directories are classified as does not depend on it. -/
theorem discover_manifests {fs : FileSystem} (hw : fs.WellFormed) {rules : Rules} (hname : IsEntryName rules.manifestName)
    {scanRoot : Path} (hdir : fs.isDir? scanRoot = .ok true) :
    ∃ root, fs.resolve scanRoot = .ok root ∧
      (∀ path : Path, '\x00' ∉ path.text.toList →
        ((∃ loaded, loadJson fs path = .ok loaded) ↔ ¬MeetsLongInteger fs path)) ∧
      ((∃ r, (Discovery.discover fs rules scanRoot).outcome = .ok r) ↔ ∀ d, Discovery.IsCandidateDir fs rules root d →
        Discovery.CanClassify fs rules d ∧
          (fs.isFile? (d.child rules.manifestName) = .ok true → ¬MeetsLongInteger fs (d.child rules.manifestName))) ∧
      ∀ r, (Discovery.discover fs rules scanRoot).outcome = .ok r →
        (∀ d es fault, fs.Reaches rules.enters root d es → fs.isFile? (d.child rules.manifestName) = .ok true →
          loadJsonMap fs (d.child rules.manifestName) = .ok (.error fault) →
          r.diagnostics.filter (·.location = relativeLocation (d.child rules.manifestName) root) =
            [Check.structureDiagnostic (relativeLocation (d.child rules.manifestName) root)
              ("无法读取或解析 '" ++ rules.manifestName ++ "': " ++ fault.reason)]) ∧
        ∀ position fs' r', DifferOnlyAt position fs fs' → (Discovery.discover fs' rules scanRoot).outcome = .ok r' →
          Discovery.SameBut (fun d => fs.leadsAt (d.child rules.manifestName) position) r r' := by
  obtain ⟨q, es, hroot, hq⟩ := Discovery.resolve_of_isDir hdir
  have hnul : '\x00' ∉ (Path.absolute q).text.toList := Files.nul_not_mem_absolute (Node.WellFormed.below hw hq).2
  obtain ⟨dirs, hdirs⟩ := Discovery.exists_candidateDirs fs rules hnul
  refine ⟨.absolute q, hroot, fun path => exists_loadJson_iff, ?_, fun r hr => ⟨?_, ?_⟩⟩
  · rw [Discovery.exists_discover_iff hroot hdirs]
    refine forall_congr' fun d => ?_
    rw [Discovery.mem_candidateDirs_iff hw hdirs, Discovery.exists_classify_iff, Path.join_ofString_part hname.isPart]
    refine imp_congr_right fun hd => and_congr_right fun _ => imp_congr_right fun _ => ?_
    obtain ⟨entries, hreach, -⟩ := hd
    exact exists_loadJson_iff (Discovery.nul_not_mem_manifest hw hname hq hreach)
  · intro d entries fault hreach hfile hfault
    obtain ⟨root', dirs', g, hroot', hdirs', hg, rfl⟩ := Discovery.discover_eq_ok.1 hr
    rw [hroot] at hroot'
    cases hroot'
    exact Discovery.filter_location_of_fault hw hname hq hdirs' hg hreach hfile hfault
  · intro position fs' r' h hr'
    exact Discovery.sameBut_of_differOnlyAt h hname hr hr'

namespace Manifests

/-- A tree with one directory that holds a manifest and nothing else. -/
def manifestTree (content : List UInt8) : FileSystem where
  entries := [("w", .dir [("package.json", .file content)])]

/-- The position of the manifest. -/
def manifestPosition : List String := ["w", "package.json"]

theorem manifestTree_at? (content : List UInt8) : (manifestTree content).at? manifestPosition = some (.file content) := rfl

theorem manifestTree_wellFormed (content : List UInt8) : (manifestTree content).WellFormed := by
  have hempty : (manifestTree []).WellFormed := by decide
  exact (Files.differOnlyAt_putAt (manifestTree_at? []) content).outline.wellFormed hempty

theorem manifestTree_reaches (content : List UInt8) :
    (manifestTree content).Reaches ({} : Rules).enters (.absolute []) (.absolute ["w"]) [("package.json", .file content)] :=
  ⟨⟨_, ["w"], rfl, rfl, by decide, rfl⟩, by decide⟩

/-- The manifest is found where it stands. -/
theorem manifestTree_stat? (content : List UInt8) :
    (manifestTree content).stat? (.absolute manifestPosition) = .ok (.file content) :=
  FileSystem.stat?_eq_ok.2
    ⟨by decide, _, FileSystem.route_of_at? (manifestTree_at? content) (by simp [manifestPosition, IsStep]; decide) rfl⟩

theorem manifestTree_isFile? (content : List UInt8) :
    (manifestTree content).isFile? (.absolute manifestPosition) = .ok true :=
  FileSystem.isFile?_eq_true.2 ⟨Path.nul_not_mem_text.2 (by decide), content, manifestTree_stat? content⟩

/-- A manifest of digits meets an integer of too many of them. -/
theorem meetsLongInteger_manifestTree {n : Nat} (h : Number.maxDigits < n) :
    MeetsLongInteger (manifestTree (List.replicate n 49)) (.absolute manifestPosition) := by
  refine ⟨List.replicate n '1', ?_, Json.meetsLongInteger_replicate h⟩
  rw [FileSystem.text?, FileSystem.octets?, manifestTree_stat?]
  simp only [decode_replicate, unifyNewlines_replicate]

theorem manifestTree_candidate (content : List UInt8) :
    Discovery.IsCandidateDir (manifestTree content) {} (.absolute []) (.absolute ["w"]) :=
  ⟨_, manifestTree_reaches content, Or.inl ⟨_, rfl, rfl⟩⟩

theorem manifestTree_isDir? (content : List UInt8) : (manifestTree content).isDir? (.absolute []) = .ok true :=
  FileSystem.isDir?_eq_true.2 ⟨by decide, _, FileSystem.stat?_eq_ok.2 ⟨by decide, [], rfl⟩⟩

theorem manifestTree_resolve (content : List UInt8) : (manifestTree content).resolve (.absolute []) = .ok (.absolute []) :=
  FileSystem.resolve_of_route (r := ⟨[], _⟩) rfl (by decide)

end Manifests

/-- A manifest that cannot be decoded gives one diagnostic at its place, and a manifest of too many digits ends the discovery. -/
theorem discover_manifests_undecodable :
    (∃ r, (Discovery.discover (Manifests.manifestTree [0xff]) {} (.absolute [])).outcome = .ok r ∧
      ((r.diagnostics.filter (·.location = "w/package.json")).map (·.kind)) = [.structureInvalid]) ∧
    ¬∃ r, (Discovery.discover (Manifests.manifestTree (List.replicate 4301 49)) {} (.absolute [])).outcome = .ok r := by
  have hname : IsEntryName ({} : Rules).manifestName := by decide
  constructor
  · have hrun : (Discovery.discover (Manifests.manifestTree [0xff]) {} (.absolute [])).outcome.toOption.isSome = true := by
      decide +kernel
    cases hr : (Discovery.discover (Manifests.manifestTree [0xff]) {} (.absolute [])).outcome with
    | error e =>
      rw [hr] at hrun
      nomatch hrun
    | ok r =>
      obtain ⟨root, hroot, -, -, hfound⟩ :=
        discover_manifests (Manifests.manifestTree_wellFormed [0xff]) hname (Manifests.manifestTree_isDir? [0xff])
      rw [Manifests.manifestTree_resolve] at hroot
      cases hroot
      have hone := (hfound r hr).1 _ _ (.unreadable (.encoding ⟨.start, 0, 0xff, 1⟩)) (Manifests.manifestTree_reaches [0xff])
        (Manifests.manifestTree_isFile? [0xff]) rfl
      have hlocation : relativeLocation ((Path.absolute ["w"]).child ({} : Rules).manifestName) (.absolute []) =
          "w/package.json" := by decide
      rw [hlocation] at hone
      refine ⟨r, rfl, ?_⟩
      rw [hone]
      rfl
  · intro hruns
    obtain ⟨root, hroot, -, hiff, -⟩ := discover_manifests (Manifests.manifestTree_wellFormed (List.replicate 4301 49)) hname
      (Manifests.manifestTree_isDir? _)
    rw [Manifests.manifestTree_resolve] at hroot
    cases hroot
    exact (hiff.1 hruns _ (Manifests.manifestTree_candidate _)).2 (Manifests.manifestTree_isFile? _)
      (Manifests.meetsLongInteger_manifestTree (by decide))

/-- A manifest of too many digits ends the discovery of a well-formed tree: there is no answer at all. -/
theorem discover_ends_on_digits :
    (Manifests.manifestTree (List.replicate 4301 49)).WellFormed ∧
      (Manifests.manifestTree (List.replicate 4301 49)).isDir? (.absolute []) = .ok true ∧
      ∃ e, (Discovery.discover (Manifests.manifestTree (List.replicate 4301 49)) {} (.absolute [])).outcome = .error e := by
  refine ⟨Manifests.manifestTree_wellFormed _, Manifests.manifestTree_isDir? _, ?_⟩
  cases hr : (Discovery.discover (Manifests.manifestTree (List.replicate 4301 49)) {} (.absolute [])).outcome with
  | error e => exact ⟨e, rfl⟩
  | ok r =>
    exfalso
    obtain ⟨root, dirs, g, hroot, hdirs, hg, -⟩ := Discovery.discover_eq_ok.1 hr
    rw [Manifests.manifestTree_resolve] at hroot
    cases hroot
    have hmem := (Discovery.mem_candidateDirs_iff (Manifests.manifestTree_wellFormed _) hdirs).2
      (Manifests.manifestTree_candidate _)
    have hloaded := (Discovery.exists_classify_iff.1 ⟨_, hg _ hmem⟩).2 (Manifests.manifestTree_isFile? _)
    exact (exists_loadJson_iff (Path.nul_not_mem_text.2 (by decide))).1 hloaded
      (Manifests.meetsLongInteger_manifestTree (by decide))

end WorkspaceLint
