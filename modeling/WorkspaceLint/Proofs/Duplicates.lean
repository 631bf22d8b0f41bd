import WorkspaceLint.Proofs.Candidates
import WorkspaceLint.Proofs.Checks
import WorkspaceLint.Proofs.Files.Listing
import WorkspaceLint.Proofs.Isolation

/-!
# Which files share a name

What is reported of contracts of the same name, said by what stands in the tree: one diagnostic for each file that is compared and
has the key of another one, in the order of keys and then of locations, and each with the locations of all files under its key
(`duplicateNames_exact`). Where the directory of contracts can be looked up, the comparison fails only on a file outside of the
project, which a directory of contracts that is written from the root can hold.
-/

namespace WorkspaceLint

open Files (FileSystem Node)

variable {fs : FileSystem} {rules : Rules} {project : Path}

namespace Check

/-! ## Files that share a name -/

/-- A file whose name is compared: it is reached from the directory of contracts, it is not hidden, and it has a suffix. -/
structure IsCompared (fs : FileSystem) (rules : Rules) (project path : Path) : Prop where
  /-- The walk from the directory of contracts comes to it. -/
  reached : fs.ReachesFile rules.enters (project.join (Path.ofString rules.contractsDir)) path
  /-- It is not hidden. -/
  visible : isHidden path.name = false
  /-- It has a suffix. -/
  suffix : path.suffix ≠ ""

/-- A file is compared, and so is another one with the same key. -/
def SharesName (fs : FileSystem) (rules : Rules) (project path : Path) : Prop :=
  IsCompared fs rules project path ∧
    ∃ other, IsCompared fs rules project other ∧ other ≠ path ∧ Naming.duplicateKey other = Naming.duplicateKey path

/-- The locations of the files that are compared under a key, in strictly ascending order. -/
structure IsGroup (fs : FileSystem) (rules : Rules) (project : Path) (key : String) (locations : List String) : Prop where
  /-- The order is strict, so no location is listed twice. -/
  ascending : locations.Pairwise (· < ·)
  /-- What is listed is where the files of the key are. -/
  mem_iff : ∀ location, location ∈ locations ↔
    ∃ p, IsCompared fs rules project p ∧ Naming.duplicateKey p = key ∧ location = relativeLocation p project

/-! ## What is compared -/

/-- Files in the project that are compared are told apart by their locations. -/
theorem IsCompared.eq_of_location (hw : fs.WellFormed) {p q : Path} (hp : IsCompared fs rules project p)
    (hq : IsCompared fs rules project q) (hpin : p.IsWithin project) (hqin : q.IsWithin project)
    (h : relativeLocation p project = relativeLocation q project) : p = q := by
  have hread : ∀ {p : Path}, IsCompared fs rules project p → p.IsWithin project →
      p = project.below (Path.ofString (relativeLocation p project)).parts := by
    intro p hp ⟨names, hnames⟩
    obtain ⟨below, hbelow, hentries⟩ := hp.reached.exists_below hw
    have hparts : ∀ x ∈ names, IsPart x :=
      Path.isPart_of_below_join (Path.isPart_ofString _) (fun x hx => (hentries x hx).isPart) (hbelow.symm.trans hnames)
    have hlocation : relativeLocation p project = (Path.ofParts names).text := by
      rw [hnames, relativeLocation, Path.below_relativeTo?]
    rw [hlocation, Path.ofString_text (p := .ofParts names) hparts]
    exact hnames
  rw [hread hp hpin, hread hq hqin, h]

/-- What is compared lies in the project, when the directory of contracts is written from there. -/
theorem IsCompared.isWithin (hw : fs.WellFormed) (hrelative : (Path.ofString rules.contractsDir).anchor = .relative) {p : Path}
    (hp : IsCompared fs rules project p) : p.IsWithin project := by
  obtain ⟨below, hbelow, -⟩ := hp.reached.exists_below hw
  rw [Path.join_relative hrelative, Path.below_below] at hbelow
  exact ⟨_, hbelow⟩

/-- What is compared lies below a directory of contracts that is one. -/
theorem IsCompared.isDir? (hw : fs.WellFormed) {p : Path} (hp : IsCompared fs rules project p) :
    fs.isDir? (project.join (Path.ofString rules.contractsDir)) = .ok true := by
  obtain ⟨directory, entries, name, n, ⟨⟨m, names, hm, hat, -⟩, -⟩, -⟩ := hp.reached
  refine Files.FileSystem.isDir?_eq_true.2 ⟨FileSystem.nul_not_mem_of_stat? hw hm, ?_⟩
  cases names with
  | nil =>
    cases hat
    exact ⟨_, hm⟩
  | cons first rest =>
    obtain ⟨es, -, rfl, -⟩ := Node.eq_dir_of_at?_cons hat
    exact ⟨es, hm⟩

/-- Where the directory of contracts is one, the files that are compared, each once, tell how the comparison ends. -/
theorem exists_compared (hw : fs.WellFormed) (hdir : fs.isDir? (project.join (Path.ofString rules.contractsDir)) = .ok true) :
    ∃ compared : List Path, compared.Nodup ∧ (∀ p, p ∈ compared ↔ IsCompared fs rules project p) ∧
      ∀ ds, (duplicateNames fs rules project).outcome = .ok ds ↔
        (∀ p ∈ compared, p.IsWithin project) ∧
          ds = (filesSharing project compared).map (sharedNameAmong rules project compared) := by
  obtain ⟨hnul, -⟩ := FileSystem.isDir?_eq_true.1 hdir
  obtain ⟨files, hfiles⟩ := Files.exists_projectFiles fs rules hnul
  refine ⟨files.filter isComparable, (Files.projectFiles_nodup hw hfiles).filter _, fun p => ?_, fun ds => ?_⟩
  · rw [List.mem_filter, Files.mem_projectFiles_iff hw hfiles, isComparable, Bool.and_eq_true, Bool.not_eq_true', bne_iff_ne]
    exact ⟨fun ⟨hr, hv, hs⟩ => ⟨hr, hv, hs⟩, fun h => ⟨h.reached, h.visible, h.suffix⟩⟩
  · simp only [duplicateNames_eq_ok hdir, hfiles, Except.ok.injEq, exists_eq_left']

/-- Where the directory of contracts is none, nothing is reported, if that can be told. -/
theorem duplicateNames_of_not_isDir {ds : List Diagnostic}
    (hdir : fs.isDir? (project.join (Path.ofString rules.contractsDir)) ≠ .ok true) :
    (duplicateNames fs rules project).outcome = .ok ds ↔
      fs.CanLookUp (project.join (Path.ofString rules.contractsDir)) ∧ ds = [] := by
  rw [duplicateNames, Logged.bind_eq_ok]
  constructor
  · rintro ⟨isDir, hisDir, h⟩
    rw [Logged.outcome_ofExcept] at hisDir
    refine ⟨FileSystem.exists_leadsTo_iff.1 ⟨isDir, hisDir⟩, ?_⟩
    cases isDir with
    | false => exact (Except.ok.inj h).symm
    | true => exact absurd hisDir hdir
  · rintro ⟨hlook, rfl⟩
    obtain ⟨isDir, hisDir⟩ : ∃ isDir, fs.isDir? (project.join (Path.ofString rules.contractsDir)) = .ok isDir :=
      FileSystem.exists_leadsTo_iff.2 hlook
    cases isDir with
    | false => exact ⟨false, hisDir, rfl⟩
    | true => exact absurd hisDir hdir

/-! ## Groups -/

/-- The files under a key make its group. -/
theorem isGroup_filesUnder (hw : fs.WellFormed) {files : List Path} (hnodup : files.Nodup)
    (hmem : ∀ p, p ∈ files ↔ IsCompared fs rules project p) (hin : ∀ p ∈ files, p.IsWithin project) (key : String) :
    IsGroup fs rules project key ((filesUnder project files key).map (relativeLocation · project)) := by
  constructor
  · rw [List.pairwise_map]
    exact filesUnder_pairwise hnodup fun p hp q hq =>
      ((hmem p).1 hp).eq_of_location hw ((hmem q).1 hq) (hin p hp) (hin q hq)
  · intro location
    rw [List.mem_map]
    constructor
    · rintro ⟨p, hp, rfl⟩
      obtain ⟨hp, hkey⟩ := mem_filesUnder.1 hp
      exact ⟨p, (hmem p).1 hp, hkey, rfl⟩
    · rintro ⟨p, hp, hkey, rfl⟩
      exact ⟨p, mem_filesUnder.2 ⟨(hmem p).2 hp, hkey⟩, rfl⟩

/-- The comparison of names ends with a list exactly when the directory of contracts can be looked up and the files that are
compared lie in the project, as they do when that directory is written from there. Then every file that shares its key with another
one is reported once, in the order of keys and then of locations, and with the locations of its group; no other file is, and none
where the directory of contracts is no directory. -/
theorem duplicateNames_exact (hw : fs.WellFormed) (rules : Rules) (project : Path) :
    ((∃ ds, (duplicateNames fs rules project).outcome = .ok ds) ↔
      fs.CanLookUp (project.join (Path.ofString rules.contractsDir)) ∧
        ((Path.ofString rules.contractsDir).anchor = .relative ∨ ∀ p, IsCompared fs rules project p → p.IsWithin project)) ∧
      ∀ ds, (duplicateNames fs rules project).outcome = .ok ds →
        (fs.isDir? (project.join (Path.ofString rules.contractsDir)) ≠ .ok true → ds = []) ∧
          ∃ (files : List Path) (group : String → List String), files.Pairwise (StandsBefore project) ∧
            (∀ p, p ∈ files ↔ SharesName fs rules project p) ∧ (∀ key, IsGroup fs rules project key (group key)) ∧
              ds = files.map fun p => sharedName rules project (group (Naming.duplicateKey p)) p := by
  by_cases hdir : fs.isDir? (project.join (Path.ofString rules.contractsDir)) = .ok true
  · obtain ⟨compared, hnodup, hmem, hiff⟩ := exists_compared hw hdir
    refine ⟨⟨?_, ?_⟩, fun ds h => ⟨fun hno => absurd hdir hno, ?_⟩⟩
    · rintro ⟨ds, h⟩
      exact ⟨FileSystem.exists_leadsTo_iff.1 ⟨true, hdir⟩, Or.inr fun p hp => ((hiff ds).1 h).1 p ((hmem p).2 hp)⟩
    · rintro ⟨-, hin⟩
      refine ⟨_, (hiff _).2 ⟨fun p hp => ?_, rfl⟩⟩
      have hp := (hmem p).1 hp
      exact hin.elim (hp.isWithin hw) fun hin => hin p hp
    · obtain ⟨hin, rfl⟩ := (hiff ds).1 h
      refine ⟨filesSharing project compared, fun key => (filesUnder project compared key).map (relativeLocation · project), ?_,
        fun p => ?_, isGroup_filesUnder hw hnodup hmem hin, rfl⟩
      · exact filesSharing_pairwise hnodup fun p hp q hq =>
          ((hmem p).1 hp).eq_of_location hw ((hmem q).1 hq) (hin p hp) (hin q hq)
      · simp only [mem_filesSharing hnodup, hmem, SharesName]
  · have hnone : ∀ p, ¬IsCompared fs rules project p := fun p hp => hdir (hp.isDir? hw)
    refine ⟨⟨?_, ?_⟩, fun ds h => ?_⟩
    · rintro ⟨ds, h⟩
      exact ⟨((duplicateNames_of_not_isDir hdir).1 h).1, Or.inr fun p hp => absurd hp (hnone p)⟩
    · exact fun ⟨hlook, _⟩ => ⟨[], (duplicateNames_of_not_isDir hdir).2 ⟨hlook, rfl⟩⟩
    · obtain ⟨-, rfl⟩ := (duplicateNames_of_not_isDir hdir).1 h
      refine ⟨fun _ => rfl, [], fun _ => [], List.Pairwise.nil, fun p => ?_, fun key => ⟨List.Pairwise.nil, fun _ => ?_⟩, rfl⟩
      · exact ⟨nofun, fun hp => absurd hp.1 (hnone p)⟩
      · exact ⟨nofun, fun ⟨p, hp, _⟩ => absurd hp (hnone p)⟩

end Check

/-! ## Directories that cannot be listed -/

namespace Duplicates

/-- Two contracts with the same key in different directories, a third one, and a hidden file. -/
def tree : FileSystem where
  entries := [("w", .dir [("contracts", .dir [(".ab.fc", .file []), ("a_b.fc", .file []), ("c.fc", .file []),
    ("sub", .dir [("AB.tact", .file [])])])])]

theorem tree_wellFormed : tree.WellFormed := by decide

/-- A contract in a directory outside of an empty project. -/
def outsideTree : FileSystem where
  entries := [("shared", .dir [("a.fc", .file [])]), ("w", .dir [])]

/-- Rules by which contracts lie in that directory. -/
def outsideRules : Rules := { contractsDir := "/shared" }

/-- Rules by which contracts lie in a directory whose name is too long. -/
def longRules : Rules := { contractsDir := Isolation.longName }

/-- Two contracts with the same key, so deep in the directory of contracts that the path of their directory is too long. -/
def deepTree : FileSystem where
  entries := [("w", .dir [("contracts", .dir (Locations.nested [("a.fc", .file []), ("a.tact", .file [])] 196))])]

set_option maxRecDepth 20000 in
theorem deepTree_wellFormed : deepTree.WellFormed := by decide

end Duplicates

namespace Check

/-- Both files are reported, with the locations of both. -/
theorem duplicateNames_exact_tree : Duplicates.tree.WellFormed ∧
    ∃ ds group, (duplicateNames Duplicates.tree {} (.absolute ["w"])).outcome = .ok ds ∧
      IsGroup Duplicates.tree {} (.absolute ["w"]) "ab" group ∧
      sharedName {} (.absolute ["w"]) group (.absolute ["w", "contracts", "a_b.fc"]) ∈ ds ∧
      sharedName {} (.absolute ["w"]) group (.absolute ["w", "contracts", "sub", "AB.tact"]) ∈ ds := by
  obtain ⟨hok, hall⟩ := duplicateNames_exact Duplicates.tree_wellFormed {} (.absolute ["w"])
  have hdir : Duplicates.tree.isDir? (.absolute ["w", "contracts"]) = .ok true := by decide +kernel
  obtain ⟨ds, hds⟩ := hok.2 ⟨FileSystem.exists_leadsTo_iff.1 ⟨true, hdir⟩, Or.inl (by decide +kernel)⟩
  obtain ⟨-, files, group, -, hmem, hgroup, rfl⟩ := hall ds hds
  have hfirst : IsCompared Duplicates.tree {} (.absolute ["w"]) (.absolute ["w", "contracts", "a_b.fc"]) := by
    refine ⟨?_, by decide +kernel, by decide +kernel⟩
    exact ⟨_, _, "a_b.fc", _, ⟨⟨_, [], rfl, rfl, by simp, rfl⟩, by decide⟩, rfl, rfl, rfl⟩
  have hsecond : IsCompared Duplicates.tree {} (.absolute ["w"]) (.absolute ["w", "contracts", "sub", "AB.tact"]) := by
    refine ⟨?_, by decide +kernel, by decide +kernel⟩
    exact ⟨_, _, "AB.tact", _, ⟨⟨_, ["sub"], rfl, rfl, by decide, rfl⟩, by decide⟩, rfl, rfl, rfl⟩
  have hkeys : Naming.duplicateKey (.absolute ["w", "contracts", "a_b.fc"]) = "ab" ∧
      Naming.duplicateKey (.absolute ["w", "contracts", "sub", "AB.tact"]) = "ab" := by decide +kernel
  have hsame := hkeys.1.trans hkeys.2.symm
  refine ⟨Duplicates.tree_wellFormed, _, group "ab", hds, hgroup "ab", ?_, ?_⟩
  · exact List.mem_map.2 ⟨_, (hmem _).2 ⟨hfirst, _, hsecond, by decide, hsame.symm⟩, by rw [hkeys.1]⟩
  · exact List.mem_map.2 ⟨_, (hmem _).2 ⟨hsecond, _, hfirst, by decide, hsame⟩, by rw [hkeys.2]⟩

/-- The comparison fails on a single contract outside of the project, and where the directory of contracts cannot be looked up; and
files in a directory whose path is too long are passed over. -/
theorem duplicateNames_inexact :
    (Duplicates.outsideTree.WellFormed ∧
      (∀ p, IsCompared Duplicates.outsideTree Duplicates.outsideRules (.absolute ["w"]) p → p = .absolute ["shared", "a.fc"]) ∧
      (duplicateNames Duplicates.outsideTree Duplicates.outsideRules (.absolute ["w"])).outcome =
        .error (.notBelow (.absolute ["shared", "a.fc"]) (.absolute ["w"]))) ∧
    ((∀ es, Duplicates.outsideTree.stat? (.absolute ["w", Duplicates.longRules.contractsDir]) ≠ .ok (.dir es)) ∧
      (duplicateNames Duplicates.outsideTree Duplicates.longRules (.absolute ["w"])).outcome =
        .error (.lookup ⟨.nameTooLong, .absolute ["w", Duplicates.longRules.contractsDir]⟩)) ∧
    (Duplicates.deepTree.WellFormed ∧
      (∃ directory, Duplicates.deepTree.LeadsDown ({} : Rules).enters (.absolute ["w", "contracts"]) directory
        [("a.fc", .file []), ("a.tact", .file [])]) ∧
      (duplicateNames Duplicates.deepTree {} (.absolute ["w"])).outcome = .ok []) := by
  have hw : Duplicates.outsideTree.WellFormed := by decide
  have hlong : Duplicates.outsideTree.isDir? (.absolute ["w", Isolation.longName]) = .error _ :=
    Isolation.leadsTo_longName ⟨[], rfl⟩ _
  refine ⟨⟨hw, fun p hp => ?_, by decide +kernel⟩, ⟨fun es hes => ?_, ?_⟩, Duplicates.deepTree_wellFormed, ?_, by decide +kernel⟩
  · have hfiles : projectFiles Duplicates.outsideTree Duplicates.outsideRules (.absolute ["shared"]) =
        .ok [.absolute ["shared", "a.fc"]] := by decide +kernel
    exact List.mem_singleton.1 ((Files.mem_projectFiles_iff hw hfiles).2 hp.reached)
  · have hdir : Duplicates.outsideTree.isDir? (.absolute ["w", Isolation.longName]) = .ok true :=
      FileSystem.isDir?_eq_true.2 ⟨FileSystem.nul_not_mem_of_stat? hw hes, es, hes⟩
    rw [hlong] at hdir
    nomatch hdir
  · have hjoin : (Path.absolute ["w"]).join (Path.ofString Duplicates.longRules.contractsDir) =
        .absolute ["w", Isolation.longName] := Path.join_ofString_part Isolation.longName_isPart.1
    rw [duplicateNames, Logged.outcome_bind, Logged.outcome_ofExcept, hjoin, hlong]
    rfl
  · refine ⟨_, _, List.replicate 196 "directory-of-project", rfl, Discovery.Candidates.at?_nested _ 196, fun x hx => ?_, rfl⟩
    rw [List.eq_of_mem_replicate hx]
    decide

end Check

end WorkspaceLint
