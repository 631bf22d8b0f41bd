import WorkspaceLint.Check.Surroundings
import WorkspaceLint.Proofs.Snapshots

/-!
# What is reported of the surroundings of a workspace

The directory above a path is reported once, when it looks like the root of a development environment and holds directories of a
project, and otherwise not at all (`surroundings_exact`). What the message names it shows as well: a directory that is found by its
name is listed above the path, so its line is in the snapshot (`exists_line_of_isDir?`).
-/

namespace WorkspaceLint

open Files (FileSystem)

namespace Check

variable {fs : FileSystem} {rules : Rules} {path : Path} {ds : List Diagnostic}

/-! ## What stands beside a path -/

/-- The directories of a project that lie beside a path, in the order of the rules. -/
def forbiddenBeside (fs : FileSystem) (rules : Rules) (path : Path) : List String :=
  rules.forbiddenDirs.filter fun name => fs.isDir? (path.parent.join (Path.ofString name)) = .ok true

/-- A path lies in the root of a development environment that holds directories of a project. -/
structure IsCrowded (fs : FileSystem) (rules : Rules) (path : Path) : Prop where
  /-- There is a directory above the path. -/
  above : path.parent ≠ path
  /-- Something is there by which the root of a development environment is known. -/
  marker : ∃ item ∈ rules.markerItems, fs.exists? (path.parent.join (Path.ofString item)) = .ok true
  /-- A directory is there that may not be. -/
  forbidden : ∃ name ∈ rules.forbiddenDirs, fs.isDir? (path.parent.join (Path.ofString name)) = .ok true

/-- Either there is something to report, and the diagnostic holds a snapshot, or there is not. -/
theorem surroundings_eq_ok (h : (surroundings fs rules path).outcome = .ok ds) :
    (IsCrowded fs rules path ∧ ∃ snapshot, Snapshot.draw fs rules.treeNoise rules.treeDepth path.parent = .ok snapshot ∧
        ds = [surroundingsDiagnostic path.parent (forbiddenBeside fs rules path) snapshot]) ∨
      ¬IsCrowded fs rules path ∧ ds = [] := by
  rw [surroundings] at h
  by_cases hparent : path.parent = path
  · simp only [hparent, if_true] at h
    cases h
    exact Or.inr ⟨fun hc => hc.above hparent, rfl⟩
  simp only [hparent, if_false] at h
  obtain ⟨markers, hmarkers, h⟩ := Logged.bind_eq_ok.1 h
  have hmarker := Files.ne_nil_iff_of_namesBelow hmarkers
  by_cases hnone : markers = []
  · simp only [hnone, if_true] at h
    cases h
    exact Or.inr ⟨fun hc => hmarker.2 hc.marker hnone, rfl⟩
  simp only [hnone, if_false] at h
  obtain ⟨found, hfound, h⟩ := Logged.bind_eq_ok.1 h
  have hforbidden := Files.ne_nil_iff_of_namesBelow hfound
  by_cases hclear : found = []
  · simp only [hclear, if_true] at h
    cases h
    exact Or.inr ⟨fun hc => hforbidden.2 hc.forbidden hclear, rfl⟩
  simp only [hclear, if_false] at h
  obtain ⟨-, -, h⟩ := Logged.bind_eq_ok.1 h
  obtain ⟨snapshot, hsnapshot, h⟩ := Logged.bind_eq_ok.1 h
  cases h
  rw [Files.eq_filter_of_namesBelow hfound]
  exact Or.inl ⟨⟨hparent, hmarker.1 hnone, hforbidden.1 hclear⟩, snapshot, hsnapshot, rfl⟩

/-- A snapshot shows each directory that is found by its name, in a line without a margin, unless the name is left out. -/
theorem exists_line_of_isDir? {ignored : List String} {depth : Nat} {shown : List Snapshot.Shown} {name : String}
    (h : Snapshot.shownBelow fs ignored depth path = .ok shown) (hdepth : 1 ≤ depth) (hname : IsPart name) (hup : name ≠ "..")
    (hvisible : name ∉ ignored) (hdir : fs.isDir? (path.join (Path.ofString name)) = .ok true) :
    ∃ isLast, ⟨[name], Snapshot.connector isLast ++ (name ++ "/")⟩ ∈ Snapshot.placedLines "" [] shown := by
  rw [Path.join_ofString_part hname] at hdir
  obtain ⟨-, es, hes⟩ := FileSystem.isDir?_eq_true.1 hdir
  obtain ⟨deeper, rfl⟩ : ∃ deeper, depth = deeper + 1 := ⟨depth - 1, by omega⟩
  obtain ⟨names, below, hnames, -, rfl⟩ := Snapshot.shownBelow_succ_eq_ok.1 h
  have hmem : (name, true) ∈ names :=
    (Snapshot.mem_visibleNames_iff hnames).2 ⟨FileSystem.mem_entries_of_stat?_child ⟨hname.2.1, hup⟩ hes, hvisible, hdir⟩
  obtain ⟨isLast, hline⟩ := Snapshot.exists_mem_placedLines (Snapshot.mem_map_ofName.2 ⟨hmem, rfl⟩) "" []
  rw [String.empty_append] at hline
  exact ⟨isLast, hline⟩

/-- What is reported of the directory above a path is one diagnostic, located there, when the directory looks like the root of a
development environment and holds directories of a project, and nothing otherwise. The message names these directories, in the
order of the rules, and ends in a snapshot; a directory among them whose name is that of an entry, and is not left out, has a line
there. -/
theorem surroundings_exact (h : (surroundings fs rules path).outcome = .ok ds) :
    ((∃ d, ds = [d] ∧ d.kind = .structureInvalid ∧ d.location = path.parent.text) ↔ IsCrowded fs rules path) ∧
      (¬IsCrowded fs rules path → ds = []) ∧
      ∀ d ∈ ds, ∃ shown, Snapshot.shownBelow fs rules.treeNoise rules.treeDepth path.parent = .ok shown ∧
        d.message =
          "上级目录 '" ++ path.parent.text ++ "' 中发现禁止的目录: " ++
            ", ".intercalate ((forbiddenBeside fs rules path).map fun name => "'" ++ name ++ "'") ++
            "。请为每个合约创建独立的 Blueprint 项目，并把这些目录放到项目内部。\n目录结构:\n" ++
            "\n".intercalate (Snapshot.title path.parent :: (Snapshot.placedLines "" [] shown).map (·.line)) ∧
        (1 ≤ rules.treeDepth → ∀ name ∈ forbiddenBeside fs rules path, IsPart name → name ≠ ".." → name ∉ rules.treeNoise →
          ∃ isLast, ⟨[name], Snapshot.connector isLast ++ (name ++ "/")⟩ ∈ Snapshot.placedLines "" [] shown) := by
  rcases surroundings_eq_ok h with ⟨hcrowded, snapshot, hsnapshot, rfl⟩ | ⟨hclear, rfl⟩
  · refine ⟨iff_of_true ⟨_, rfl, rfl, rfl⟩ hcrowded, absurd hcrowded, fun d hd => ?_⟩
    obtain rfl := List.mem_singleton.1 hd
    rw [Snapshot.draw, Snapshot.lines] at hsnapshot
    cases hshown : Snapshot.shownBelow fs rules.treeNoise rules.treeDepth path.parent with
    | error e =>
      rw [hshown] at hsnapshot
      cases hsnapshot
    | ok shown =>
      rw [hshown] at hsnapshot
      cases hsnapshot
      refine ⟨shown, rfl, ?_, fun hdepth name hname hpart hup hvisible => ?_⟩
      · rw [surroundingsDiagnostic, Snapshot.map_line_placedLines]
      · have hdir := (List.mem_filter.1 hname).2
        exact exists_line_of_isDir? hshown hdepth hpart hup hvisible (by simpa using hdir)
  · refine ⟨iff_of_false ?_ hclear, fun _ => rfl, fun d hd => absurd hd List.not_mem_nil⟩
    rintro ⟨d, hnil, -⟩
    cases hnil

/-! ## A crowded directory -/

namespace Surroundings

/-- A workspace in a directory with a manifest, contracts, and tests that a link leads to. -/
def crowdedTree : FileSystem where
  entries :=
    [("p", .dir [("package.json", .file []), ("w", .dir []), ("test", .link "w"), ("dist", .dir []),
      ("contracts", .dir [("a.fc", .file [])])])]

/-- What is seen above the workspace. -/
def crowdedRow : List Snapshot.Shown :=
  [.entry "contracts" true [.entry "a.fc" false []], .entry "test" true [], .entry "w" true [],
    .entry "package.json" false []]

/-- What is reported there. -/
def crowdedDiagnostic : Diagnostic where
  kind := .structureInvalid
  location := "/p"
  message :=
    "上级目录 '/p' 中发现禁止的目录: 'contracts', 'test'。请为每个合约创建独立的 Blueprint 项目，并把这些目录放到项目内部。\n" ++
      "目录结构:\np/\n├── contracts/\n│   └── a.fc\n├── test/\n├── w/\n└── package.json"

theorem shownBelow_crowdedTree :
    Snapshot.shownBelow crowdedTree ({} : Rules).treeNoise 2 (.absolute ["p"]) = .ok crowdedRow := by
  have hlisted : (((crowdedTree.directoryAt (.absolute ["p"])).entries.map (·.1)).filter (· ∉ ({} : Rules).treeNoise)).mapM
      (fun name => (crowdedTree.isDir? ((Path.absolute ["p"]).child name)).map fun isDir => (name, isDir)) =
        .ok [("package.json", false), ("w", true), ("test", true), ("contracts", true)] := by
    decide +kernel
  refine Snapshot.shownBelow_succ_eq_ok.2 ⟨[("contracts", true), ("test", true), ("w", true), ("package.json", false)],
    fun name => if name = "contracts" then [.entry "a.fc" false []] else [],
    Snapshot.visibleNames_of_perm (by decide) hlisted (by decide) (by decide), fun name hname => ?_, rfl⟩
  have hcases : name = "contracts" ∨ name = "test" ∨ name = "w" := by simpa using hname
  rcases hcases with rfl | rfl | rfl
  · exact Snapshot.shownBelow_succ_eq_ok.2 ⟨[("a.fc", false)], fun _ => [],
      Snapshot.visibleNames_of_perm (by decide) (by decide +kernel) (List.Perm.refl _) (by decide),
      fun _ _ => by rw [Snapshot.shownBelow], rfl⟩
  all_goals exact Snapshot.shownBelow_succ_eq_ok.2 ⟨[], fun _ => [],
    Snapshot.visibleNames_of_perm (by decide) (by decide +kernel) (List.Perm.refl _) (by decide),
    fun _ _ => by rw [Snapshot.shownBelow], rfl⟩

theorem draw_crowdedTree : Snapshot.draw crowdedTree ({} : Rules).treeNoise 2 (.absolute ["p"]) =
    .ok "p/\n├── contracts/\n│   └── a.fc\n├── test/\n├── w/\n└── package.json" := by
  rw [Snapshot.draw, Snapshot.lines_of_shownBelow shownBelow_crowdedTree]
  decide +kernel

theorem surroundings_crowdedTree :
    (surroundings crowdedTree {} (.absolute ["p", "w"])).outcome = .ok [crowdedDiagnostic] := by
  have hmarkers : Files.namesBelow crowdedTree.exists? (.absolute ["p"]) ({} : Rules).markerItems = .ok ["package.json"] := by
    decide +kernel
  have hfound : Files.namesBelow crowdedTree.isDir? (.absolute ["p"]) ({} : Rules).forbiddenDirs =
      .ok ["contracts", "test"] := by
    decide +kernel
  have hdiagnostic : surroundingsDiagnostic (.absolute ["p"]) ["contracts", "test"]
      "p/\n├── contracts/\n│   └── a.fc\n├── test/\n├── w/\n└── package.json" = crowdedDiagnostic := by
    decide +kernel
  rw [surroundings]
  refine Logged.bind_eq_ok.2 ⟨_, hmarkers, Logged.bind_eq_ok.2 ⟨_, hfound, ?_⟩⟩
  exact Logged.bind_eq_ok.2 ⟨(), rfl, Logged.bind_eq_ok.2 ⟨_, draw_crowdedTree, by rw [← hdiagnostic]; rfl⟩⟩

end Surroundings

/-- A directory that a link leads to is accused and shown as any other. -/
theorem surroundings_exact_crowded :
    (surroundings Surroundings.crowdedTree {} (.absolute ["p", "w"])).outcome = .ok [Surroundings.crowdedDiagnostic] ∧
      IsCrowded Surroundings.crowdedTree {} (.absolute ["p", "w"]) ∧
      ∃ isLast, ⟨["test"], Snapshot.connector isLast ++ ("test" ++ "/")⟩ ∈
        Snapshot.placedLines "" [] Surroundings.crowdedRow := by
  obtain ⟨hiff, -, hall⟩ := surroundings_exact Surroundings.surroundings_crowdedTree
  obtain ⟨shown, hshown, -, hlines⟩ := hall _ (List.mem_singleton_self _)
  obtain rfl : shown = Surroundings.crowdedRow := Except.ok.inj (hshown.symm.trans Surroundings.shownBelow_crowdedTree)
  have htest : "test" ∈ forbiddenBeside Surroundings.crowdedTree {} (.absolute ["p", "w"]) := by decide +kernel
  exact ⟨Surroundings.surroundings_crowdedTree, hiff.1 ⟨_, rfl, rfl, rfl⟩,
    hlines (by decide) "test" htest ⟨by decide, by decide, by decide⟩ (by decide) (by decide)⟩

end Check

end WorkspaceLint
