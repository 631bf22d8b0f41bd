import WorkspaceLint.Proofs.Outcome
import WorkspaceLint.Proofs.Path
import WorkspaceLint.Proofs.Sorting

/-!
# Files by their keys

The comparison of names as a list of files: those of two or more under one key, in the order of keys and then of locations. A
comparison that succeeds reports each file of that list, with the locations of the files under its key (`duplicateNames_eq_ok`).
-/

namespace WorkspaceLint.Check

open Files (FileSystem)

variable {fs : FileSystem} {rules : Rules} {project : Path}

/-! ## Lists and texts -/

/-- A list of fewer than two members has no two of them. -/
theorem eq_of_length_lt_two {α : Type} {l : List α} (h : l.length < 2) {a b : α} (ha : a ∈ l) (hb : b ∈ l) : a = b := by
  rcases l with _ | ⟨x, _ | ⟨y, rest⟩⟩
  · nomatch ha
  · rw [List.mem_singleton.1 ha, List.mem_singleton.1 hb]
  · simp only [List.length_cons] at h
    omega

theorem sortTexts_map {α : Type} (text : α → String) (l : List α) :
    sortTexts (l.map text) = (l.mergeSort fun a b => text a ≤ text b).map text :=
  (List.map_mergeSort (r := fun a b => decide (text a ≤ text b)) (s := fun s t => decide (s ≤ t)) fun _ _ _ _ => rfl).symm

/-! ## Files under a key -/

/-- The files of a list under a key, in the order of their locations. -/
def filesUnder (project : Path) (files : List Path) (key : String) : List Path :=
  (files.filter (Naming.duplicateKey · = key)).mergeSort fun p q => relativeLocation p project ≤ relativeLocation q project

/-- The order of files by their keys and then by their locations. -/
def StandsBefore (project p q : Path) : Prop :=
  Naming.duplicateKey p < Naming.duplicateKey q ∨
    Naming.duplicateKey p = Naming.duplicateKey q ∧ relativeLocation p project < relativeLocation q project

/-- The files of a list that share their keys with others, in the order of keys and then of locations. -/
def filesSharing (project : Path) (files : List Path) : List Path :=
  (sortTexts (files.map Naming.duplicateKey).eraseDups).flatMap fun key =>
    if (filesUnder project files key).length < 2 then [] else filesUnder project files key

section FilesUnder

variable {files : List Path} {key : String}

theorem mem_filesUnder {p : Path} : p ∈ filesUnder project files key ↔ p ∈ files ∧ Naming.duplicateKey p = key := by
  rw [filesUnder, List.mem_mergeSort, List.mem_filter, decide_eq_true_eq]

theorem filesUnder_nodup (hnodup : files.Nodup) : (filesUnder project files key).Nodup :=
  List.nodup_mergeSort.2 (hnodup.filter _)

theorem filesUnder_pairwise (hnodup : files.Nodup)
    (hlocation : ∀ p ∈ files, ∀ q ∈ files, relativeLocation p project = relativeLocation q project → p = q) :
    (filesUnder project files key).Pairwise fun p q => relativeLocation p project < relativeLocation q project :=
  pairwise_lt_mergeSort_of_key (relativeLocation · project) (hnodup.filter _) fun p hp q hq =>
    hlocation p (List.mem_filter.1 hp).1 q (List.mem_filter.1 hq).1

/-- A key has two files when one of its files is not the only one. -/
theorem length_filesUnder (hnodup : files.Nodup) {p : Path} (hp : p ∈ filesUnder project files key) :
    ¬(filesUnder project files key).length < 2 ↔ ∃ other ∈ files, other ≠ p ∧ Naming.duplicateKey other = key := by
  constructor
  · intro hlen
    have hne : filesUnder project files key ≠ [p] := fun he => hlen (by rw [he, List.length_singleton]; decide)
    rcases ((filesUnder_nodup hnodup).ne_singleton_iff p).1 hne with hnil | ⟨other, hother, hdiff⟩
    · rw [hnil] at hp
      nomatch hp
    · exact ⟨other, (mem_filesUnder.1 hother).1, hdiff, (mem_filesUnder.1 hother).2⟩
  · rintro ⟨other, hother, hdiff, hkey⟩ hlen
    exact hdiff (eq_of_length_lt_two hlen (mem_filesUnder.2 ⟨hother, hkey⟩) hp)

/-- A file that shares its key stands with the files under it, of which there are two. -/
theorem mem_filesSharing_iff {p : Path} : p ∈ filesSharing project files ↔
    p ∈ filesUnder project files (Naming.duplicateKey p) ∧ ¬(filesUnder project files (Naming.duplicateKey p)).length < 2 := by
  rw [filesSharing, List.mem_flatMap]
  constructor
  · rintro ⟨key, -, hp⟩
    split at hp
    · nomatch hp
    · rename_i hlen
      obtain ⟨-, rfl⟩ := mem_filesUnder.1 hp
      exact ⟨hp, hlen⟩
  · rintro ⟨hp, hlen⟩
    refine ⟨Naming.duplicateKey p, ?_, ?_⟩
    · rw [sortTexts, List.mem_mergeSort, List.mem_eraseDups]
      exact List.mem_map_of_mem (mem_filesUnder.1 hp).1
    · rw [if_neg hlen]
      exact hp

theorem mem_filesSharing (hnodup : files.Nodup) {p : Path} : p ∈ filesSharing project files ↔
    p ∈ files ∧ ∃ other ∈ files, other ≠ p ∧ Naming.duplicateKey other = Naming.duplicateKey p := by
  rw [mem_filesSharing_iff]
  constructor
  · rintro ⟨hp, hlen⟩
    exact ⟨(mem_filesUnder.1 hp).1, (length_filesUnder hnodup hp).1 hlen⟩
  · rintro ⟨hmem, hother⟩
    have hp : p ∈ filesUnder project files (Naming.duplicateKey p) := mem_filesUnder.2 ⟨hmem, rfl⟩
    exact ⟨hp, (length_filesUnder hnodup hp).2 hother⟩

theorem filesSharing_pairwise (hnodup : files.Nodup)
    (hlocation : ∀ p ∈ files, ∀ q ∈ files, relativeLocation p project = relativeLocation q project → p = q) :
    (filesSharing project files).Pairwise (StandsBefore project) := by
  have hkey : ∀ {key : String} {p : Path}, p ∈ (if (filesUnder project files key).length < 2 then [] else
      filesUnder project files key) → Naming.duplicateKey p = key := by
    intro key p hp
    split at hp
    · nomatch hp
    · exact (mem_filesUnder.1 hp).2
  rw [filesSharing, List.pairwise_flatMap]
  constructor
  · intro key _
    split
    · exact List.Pairwise.nil
    · refine (filesUnder_pairwise hnodup hlocation).imp_of_mem fun hp hq hlt => Or.inr ⟨?_, hlt⟩
      rw [(mem_filesUnder.1 hp).2, (mem_filesUnder.1 hq).2]
  · refine (pairwise_lt_mergeSort_of_key id (nodup_eraseDups _) fun _ _ _ _ he => he).imp fun hlt p hp q hq => Or.inl ?_
    rw [hkey hp, hkey hq]
    exact hlt

end FilesUnder

/-! ## What is reported -/

/-- A file in a project is compared by its key, under its location. -/
theorem keyedLocation_eq_ok {path : Path} {keyed : String × String} :
    keyedLocation project path = .ok keyed ↔
      path.IsWithin project ∧ keyed = (Naming.duplicateKey path, relativeLocation path project) := by
  rw [Path.isWithin_iff, keyedLocation, relativeLocation]
  cases path.relativeTo? project with
  | none => simp
  | some location => simp [eq_comm]

/-- The diagnostic for a file, with the locations of all files of its group. -/
def sharedName (rules : Rules) (project : Path) (group : List String) (path : Path) : Diagnostic where
  kind := .namingMismatch
  location := relativeLocation path project
  message := "'" ++ rules.contractsDir ++ "' 目录中存在重名文件: " ++ ", ".intercalate group ++
    "。忽略大小写、下划线和扩展名后文件名必须唯一。"
  namesLocation := true

/-- The diagnostic for a file among those that are compared. -/
def sharedNameAmong (rules : Rules) (project : Path) (files : List Path) (path : Path) : Diagnostic :=
  sharedName rules project ((filesUnder project files (Naming.duplicateKey path)).map (relativeLocation · project)) path

/-- What is reported under a key is about its files, when there are two. -/
theorem outcome_duplicatesOfKey (rules : Rules) (project : Path) (files : List Path) (key : String) :
    (duplicatesOfKey rules (files.map fun p => (Naming.duplicateKey p, relativeLocation p project)) key).outcome =
      .ok ((if (filesUnder project files key).length < 2 then [] else filesUnder project files key).map
        (sharedNameAmong rules project files)) := by
  have hmembers : sortTexts (((files.map fun p => (Naming.duplicateKey p, relativeLocation p project)).filter (·.1 = key)).map
      (·.2)) = (filesUnder project files key).map (relativeLocation · project) := by
    rw [filesUnder, ← sortTexts_map (relativeLocation · project), List.filter_map, List.map_map, Function.comp_def,
      Function.comp_def]
  simp only [duplicatesOfKey, hmembers, List.length_map]
  split
  · rfl
  · rw [Logged.outcome_bind, Logged.outcome_log]
    refine congrArg Except.ok ?_
    rw [duplicateDiagnostics, List.map_map]
    refine List.map_congr_left fun p hp => ?_
    rw [sharedNameAmong, (mem_filesUnder.1 hp).2]
    rfl

/-- What is reported is about the files that share their keys with others. -/
theorem outcome_collect_duplicatesOfKey (rules : Rules) (project : Path) (files : List Path) :
    (Logged.collect (duplicatesOfKey rules (files.map fun p => (Naming.duplicateKey p, relativeLocation p project)))
      (sortTexts (files.map Naming.duplicateKey).eraseDups)).outcome =
        .ok ((filesSharing project files).map (sharedNameAmong rules project files)) := by
  refine Logged.collect_eq_ok.2 ⟨_, fun key _ => outcome_duplicatesOfKey rules project files key, ?_⟩
  rw [filesSharing, List.map_flatMap]

/-- Where the directory of contracts is one, the comparison succeeds when every file that is compared lies in the project, and then
it reports those that share their keys with others. -/
theorem duplicateNames_eq_ok {ds : List Diagnostic} (hdir : fs.isDir? (project.join (Path.ofString rules.contractsDir)) = .ok true) :
    (duplicateNames fs rules project).outcome = .ok ds ↔
      ∃ files, projectFiles fs rules (project.join (Path.ofString rules.contractsDir)) = .ok files ∧
        (∀ p ∈ files.filter isComparable, p.IsWithin project) ∧
        ds = (filesSharing project (files.filter isComparable)).map
          (sharedNameAmong rules project (files.filter isComparable)) := by
  have hkeys : ∀ compared : List Path, (compared.map fun p => (Naming.duplicateKey p, relativeLocation p project)).map (·.1) =
      compared.map Naming.duplicateKey := fun compared => List.map_map
  simp only [duplicateNames, Logged.bind_eq_ok, Logged.outcome_ofExcept, hdir, Except.ok.injEq, exists_eq_left',
    Bool.not_true, Bool.false_eq_true, if_false]
  refine exists_congr fun files => and_congr_right fun _ => ⟨?_, ?_⟩
  · rintro ⟨keyed, hkeyed, hds⟩
    obtain ⟨k, hk, rfl⟩ := mapM_eq_ok.1 hkeyed
    have hin := fun p hp => keyedLocation_eq_ok.1 (hk p hp)
    rw [List.map_congr_left fun p hp => (hin p hp).2, hkeys, outcome_collect_duplicatesOfKey] at hds
    exact ⟨fun p hp => (hin p hp).1, (Except.ok.inj hds).symm⟩
  · rintro ⟨hin, rfl⟩
    refine ⟨_, mapM_eq_ok.2 ⟨_, fun p hp => keyedLocation_eq_ok.2 ⟨hin p hp, rfl⟩, rfl⟩, ?_⟩
    rw [hkeys]
    exact outcome_collect_duplicatesOfKey rules project _

end WorkspaceLint.Check
