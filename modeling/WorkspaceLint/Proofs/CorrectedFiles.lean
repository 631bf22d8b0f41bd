import WorkspaceLint.Proofs.ExpectedNames
import WorkspaceLint.Proofs.FilesByKey

/-!
# Files under the names that they should have

The name that a file should have has the key of the name that it has: inserting underscores first and then taking lower case, or taking
lower case first and then leaving underscores out, comes to the same (`filter_lowerAfter_divided`), since no underscore goes where the
context of a capital sigma would show it. So no two files come under one key, and none get apart, when files get the names that they
should have (`duplicateNames_corrected`).
-/

namespace WorkspaceLint

open Files (FileSystem)

namespace Naming

/-! ## Keys of snake_case forms -/

/-- Letters and digits are seen by a capital sigma. -/
theorem not_isCaseIgnorable_of_isAlphanumeric {c : Char} (h : isAlphanumeric c = true) : Text.isCaseIgnorable c = false := by
  rw [isAlphanumeric_eq_isAlphanum] at h
  exact Text.Ranges.not_contains_of_isAlphanum (by decide +kernel) h

theorem ne_sigma_of_isAlphanumeric {c : Char} (h : isAlphanumeric c = true) : c ≠ 'Σ' := by
  rintro rfl
  exact absurd h (by decide)

/-- A capital sigma sees the same behind it when the text there is divided. -/
theorem startsCased_divided (s : List Char) : Text.startsCased (divided s) = Text.startsCased s := by
  induction s with
  | nil => rfl
  | cons a rest ih =>
    cases rest with
    | nil => rfl
    | cons b rest =>
      rcases divided_cons_cases a b rest with heq | ⟨⟨ha, -⟩, heq⟩
      · rw [heq, Text.startsCased_cons, ih, Text.startsCased_cons a]
      · simp [heq, Text.startsCased_cons, not_isCaseIgnorable_of_isAlphanumeric ha]

/-- Dividing a text changes its lower case by underscores only. A capital behind an underscore is no sigma, so what stands before it
does not show. -/
theorem filter_lowerAfter_divided (s : List Char) : ∀ before : List Char,
    (Text.lowerAfter before (divided s)).filter (· ≠ '_') = (Text.lowerAfter before s).filter (· ≠ '_') := by
  have hunderscore : Text.lowerChar '_' = ['_'] := by decide +kernel
  induction s with
  | nil =>
    intro before
    rfl
  | cons a rest ih =>
    intro before
    cases rest with
    | nil => rfl
    | cons b rest =>
      rcases divided_cons_cases a b rest with heq | ⟨⟨ha, hb⟩, heq⟩
      · have hsigma : Text.lowerSigma before (divided (b :: rest)) = Text.lowerSigma before (b :: rest) := by
          rw [Text.lowerSigma, startsCased_divided, Text.lowerSigma]
        rw [heq, Text.lowerAfter, hsigma, List.filter_append, ih, ← List.filter_append]
        rfl
      · have hcapital : isAlphanumeric b = true := by simp [isAlphanumeric, hb]
        obtain ⟨more, hmore⟩ := exists_divided_cons b rest
        have hcontext : Text.lowerAfter ('_' :: a :: before) (divided (b :: rest)) =
            Text.lowerAfter (a :: before) (divided (b :: rest)) := by
          rw [hmore]
          exact Text.lowerAfter_cons_congr (ne_sigma_of_isAlphanumeric hcapital) (not_isCaseIgnorable_of_isAlphanumeric hcapital) _ _ _
        rw [heq, Text.lowerAfter, if_neg (ne_sigma_of_isAlphanumeric ha), Text.lowerAfter, if_neg (by decide), hunderscore, hcontext,
          Text.lowerAfter, if_neg (ne_sigma_of_isAlphanumeric ha), List.filter_append, List.filter_append, List.filter_append, ih]
        rfl

/-- The snake_case form of a stem has the key of the stem. -/
theorem stemKey_snakeChars (s : List Char) : stemKey (String.ofList (snakeChars s)) = stemKey (String.ofList s) := by
  rw [stemKey, stemKey, String.toList_ofList, String.toList_ofList, snakeChars_eq_lower_divided, Text.lower_lower]
  exact congrArg String.ofList (filter_lowerAfter_divided s [])

/-- A snake_case form starts with a dot exactly when the text does. -/
theorem head?_snakeChars_eq_dot_iff {s : List Char} : (snakeChars s).head? = some '.' ↔ s.head? = some '.' := by
  cases s with
  | nil => rfl
  | cons c rest =>
    obtain ⟨more, hmore⟩ := exists_divided_cons c rest
    have hdot : Text.lowerChar '.' = ['.'] := by decide +kernel
    rw [snakeChars_eq_lower_divided, hmore, Text.lower, Text.lowerAfter, List.head?_cons, Option.some.injEq]
    split
    · rename_i hsigma
      rw [hsigma, List.singleton_append, List.head?_cons, Option.some.injEq, Text.lowerSigma]
      split
      · decide
      · decide
    · obtain ⟨d, ds, hd⟩ := List.exists_cons_of_ne_nil (Text.lowerChar_ne_nil c)
      rw [hd, List.cons_append, List.head?_cons, Option.some.injEq]
      constructor
      · rintro rfl
        exact Text.eq_of_mem_lowerChar (hd ▸ List.mem_cons_self) (by decide)
      · rintro rfl
        rw [hdot] at hd
        exact (List.cons.inj hd).1.symm

/-! ## Files under corrected names -/

/-- A file whose name has a suffix and no test marker before it. -/
def IsUnmarked (p : Path) : Prop := p.suffix ≠ "" ∧ ∀ e ∈ markerEndings, ¬e <:+ p.stem.toList

instance (p : Path) : Decidable (IsUnmarked p) := inferInstanceAs (Decidable (_ ∧ _))

/-- The path of a file under the name that it should have, when its name has a suffix and no test marker; other files stay. -/
def corrected (p : Path) : Path := if IsUnmarked p then renamed p else p

variable {p q : Path}

/-- Without a test marker the canonical name is the stem in snake_case. -/
theorem IsUnmarked.canonicalName_eq (h : IsUnmarked p) : canonicalName p = String.ofList (snakeChars p.stem.toList) := by
  rw [canonicalName, canonicalStem, dropTestMarker_eq_self_iff.2 h.2]

theorem IsUnmarked.stem_ne_nil (h : IsUnmarked p) : p.stem.toList ≠ [] := by
  obtain ⟨before, after, hbefore, -, -, hstem, -⟩ := exists_of_suffix_ne h.1
  rwa [hstem, String.toList_ofList]

theorem IsUnmarked.canonicalName_ne (h : IsUnmarked p) : canonicalName p ≠ "" := by
  rw [ne_eq, canonicalName_eq_empty_iff, dropTestMarker_eq_self_iff.2 h.2]
  exact h.stem_ne_nil

/-- The key of a file is the one of its canonical name. -/
theorem IsUnmarked.stemKey_canonicalName (h : IsUnmarked p) : stemKey (canonicalName p) = duplicateKey p := by
  rw [h.canonicalName_eq, stemKey_snakeChars, String.ofList_toList, duplicateKey]

theorem IsUnmarked.duplicateKey_renamed (h : IsUnmarked p) : duplicateKey (renamed p) = duplicateKey p := by
  rw [duplicateKey, (splitSuffix_renamed h.1 h.canonicalName_ne).1, h.stemKey_canonicalName]

/-- A renamed file is hidden exactly when the file is. -/
theorem IsUnmarked.isHidden_renamed (h : IsUnmarked p) : isHidden (renamed p).name = isHidden p.name := by
  have hname : p.name.toList = p.stem.toList ++ p.suffix.toList := by
    rw [Path.stem, Path.suffix, String.toList_ofList, String.toList_ofList, splitSuffix_append]
  have hne : (canonicalName p).toList ≠ [] := fun hnil => h.canonicalName_ne (String.toList_eq_nil_iff.1 hnil)
  have hhead : (canonicalName p).toList.head? = some '.' ↔ p.stem.toList.head? = some '.' := by
    rw [h.canonicalName_eq, String.toList_ofList, head?_snakeChars_eq_dot_iff]
  rw [isHidden, isHidden, renamed, Path.child_name, expectedName, String.toList_append, hname, List.head?_append_of_ne_nil _ hne,
    List.head?_append_of_ne_nil _ h.stem_ne_nil, Bool.eq_iff_iff, beq_iff_eq, beq_iff_eq, hhead]

theorem duplicateKey_corrected (p : Path) : duplicateKey (corrected p) = duplicateKey p := by
  unfold corrected
  split
  · rename_i h
    exact h.duplicateKey_renamed
  · rfl

end Naming

namespace Check

open Naming (corrected)

/-- A file takes part in the comparison under its corrected name exactly when it does under its own one. -/
theorem isComparable_corrected (p : Path) : isComparable (corrected p) = isComparable p := by
  unfold corrected
  split
  · rename_i h
    rw [isComparable, h.isHidden_renamed, (Naming.splitSuffix_renamed h.1 h.canonicalName_ne).2, isComparable]
  · rfl

variable {project : Path} {files files' : List Path}

theorem filter_isComparable_corrected (files : List Path) :
    (files.map corrected).filter isComparable = (files.filter isComparable).map corrected := by
  rw [List.filter_map]
  refine congrArg (List.map corrected) (List.filter_congr fun p _ => ?_)
  rw [Function.comp_apply, isComparable_corrected]

/-! ## Files under a key, in any order -/

theorem filesUnder_perm (project : Path) (files : List Path) (key : String) :
    (filesUnder project files key).Perm (files.filter (Naming.duplicateKey · = key)) :=
  List.mergeSort_perm _ _

/-- Under a key are the same files in whatever order they are listed. -/
theorem filesUnder_perm_of_perm (h : files.Perm files') (key : String) :
    (filesUnder project files key).Perm (filesUnder project files' key) :=
  (filesUnder_perm project files key).trans ((h.filter _).trans (filesUnder_perm project files' key).symm)

/-- Under a key are the same files when they get the names that they should have. -/
theorem filesUnder_corrected (project : Path) (files : List Path) (key : String) :
    (filesUnder project (files.map corrected) key).Perm ((filesUnder project files key).map corrected) := by
  refine (filesUnder_perm project _ key).trans (List.Perm.trans ?_ ((filesUnder_perm project files key).map corrected).symm)
  rw [List.filter_map]
  refine List.Perm.of_eq (congrArg (List.map corrected) (List.filter_congr fun p _ => ?_))
  rw [Function.comp_apply, Naming.duplicateKey_corrected]

/-- Files share their keys with others exactly when they do so under the names that they should have. -/
theorem filesSharing_corrected (project : Path) (h : files'.Perm (files.map corrected)) :
    (filesSharing project files').Perm ((filesSharing project files).map corrected) := by
  have hkeys : sortTexts (files'.map Naming.duplicateKey).eraseDups = sortTexts (files.map Naming.duplicateKey).eraseDups := by
    refine sortTexts_eq_of_perm (perm_eraseDups fun key => ?_)
    rw [(h.map Naming.duplicateKey).mem_iff, List.map_map, Function.comp_def]
    simp only [Naming.duplicateKey_corrected]
  rw [filesSharing, filesSharing, List.map_flatMap, hkeys]
  refine List.Perm.flatMap_left _ fun key _ => ?_
  have hunder := (filesUnder_perm_of_perm h key).trans (filesUnder_corrected project files key)
  have hlength := hunder.length_eq
  rw [List.length_map] at hlength
  rw [hlength]
  split
  · exact List.Perm.refl _
  · exact hunder

/-- What is said of a file does not hang on the order in which files are listed. -/
theorem sharedNameAmong_of_perm (rules : Rules) (h : files.Perm files') (p : Path) :
    sharedNameAmong rules project files p = sharedNameAmong rules project files' p := by
  have hlocations : ∀ files : List Path, (filesUnder project files (Naming.duplicateKey p)).map (relativeLocation · project) =
      sortTexts ((files.filter (Naming.duplicateKey · = Naming.duplicateKey p)).map (relativeLocation · project)) :=
    fun files => (sortTexts_map (relativeLocation · project) _).symm
  rw [sharedNameAmong, sharedNameAmong, hlocations, hlocations, sortTexts_eq_of_perm ((h.filter _).map _)]

/-! ## What is reported of corrected files -/

/-- Two trees of contracts, of which the second has the files of the first under their corrected names. -/
structure IsCorrected (fs fs' : FileSystem) (rules : Rules) (project : Path) (files : List Path) : Prop where
  /-- The contracts of the first tree lie in a directory. -/
  isDir : fs.isDir? (project.join (Path.ofString rules.contractsDir)) = .ok true
  /-- So do those of the second. -/
  isDir' : fs'.isDir? (project.join (Path.ofString rules.contractsDir)) = .ok true
  /-- The files of the first tree. -/
  listed : projectFiles fs rules (project.join (Path.ofString rules.contractsDir)) = .ok files
  /-- Those of the second, in any order. -/
  listed' : ∃ files', projectFiles fs' rules (project.join (Path.ofString rules.contractsDir)) = .ok files' ∧
    files'.Perm (files.map corrected)

/-- A file without a test marker has the key of the name that it should have, so two such files should have one name only when they
have one key. Under each key are the same files when all that should have other names get them, and what is reported then is about
the same files. -/
theorem duplicateNames_corrected (project : Path) :
    (∀ p, Naming.IsUnmarked p → Naming.duplicateKey (Naming.renamed p) = Naming.duplicateKey p) ∧
      (∀ p q, Naming.IsUnmarked p → Naming.IsUnmarked q → Naming.canonicalName p = Naming.canonicalName q →
        Naming.duplicateKey p = Naming.duplicateKey q) ∧
      (∀ (files : List Path) (key : String), (filesUnder project ((files.map corrected).filter isComparable) key).Perm
        ((filesUnder project (files.filter isComparable) key).map corrected)) ∧
      ∀ (fs fs' : FileSystem) (rules : Rules) (files : List Path) (ds ds' : List Diagnostic),
        IsCorrected fs fs' rules project files → (duplicateNames fs rules project).outcome = .ok ds →
        (duplicateNames fs' rules project).outcome = .ok ds' →
          ∃ reported ⊆ files, ds = reported.map (sharedNameAmong rules project (files.filter isComparable)) ∧
            ds'.Perm (reported.map fun p =>
              sharedNameAmong rules project ((files.map corrected).filter isComparable) (corrected p)) := by
  refine ⟨fun p hp => hp.duplicateKey_renamed, fun p q hp hq h => ?_, fun files key => ?_, ?_⟩
  · rw [← hp.stemKey_canonicalName, ← hq.stemKey_canonicalName, h]
  · rw [filter_isComparable_corrected]
    exact filesUnder_corrected project _ key
  · intro fs fs' rules files ds ds' hfiles hds hds'
    obtain ⟨files', hlisted', hperm⟩ := hfiles.listed'
    obtain ⟨found, hfound, -, rfl⟩ := (duplicateNames_eq_ok hfiles.isDir).1 hds
    obtain ⟨found', hfound', -, rfl⟩ := (duplicateNames_eq_ok hfiles.isDir').1 hds'
    obtain rfl := Except.ok.inj (hfound.symm.trans hfiles.listed)
    obtain rfl := Except.ok.inj (hfound'.symm.trans hlisted')
    have hcompared := hperm.filter isComparable
    have hreported := filesSharing_corrected project (filter_isComparable_corrected found ▸ hcompared)
    have hsubset : filesSharing project (found.filter isComparable) ⊆ found := fun p hp =>
      (List.mem_filter.1 (mem_filesUnder.1 (mem_filesSharing_iff.1 hp).1).1).1
    refine ⟨_, hsubset, rfl, (hreported.map _).trans ?_⟩
    rw [List.map_map]
    refine List.Perm.of_eq (List.map_congr_left fun p _ => ?_)
    exact sharedNameAmong_of_perm rules hcompared (corrected p)

end Check

namespace CorrectedFiles

/-- A tree of three contracts, one of them in a directory of its own. -/
def tree (first second third : String) : FileSystem where
  entries := [("w", .dir [("contracts", .dir [(first, .file []), (second, .file []), ("sub", .dir [(third, .file [])])])])]

/-- The paths of the contracts. -/
def files (first second third : String) : List Path :=
  [.absolute ["w", "contracts", first], .absolute ["w", "contracts", second], .absolute ["w", "contracts", "sub", third]]

/-- Three contracts of one key. -/
def jettons : List Path := files "MyJetton.fc" "my_jetton.tact" "myJETTON.func"

theorem files_isWithin {first second third : String} {p : Path} (h : p ∈ (files first second third).filter Check.isComparable) :
    p.IsWithin (.absolute ["w"]) := by
  have hmem := (List.mem_filter.1 h).1
  simp only [files, List.mem_cons, List.not_mem_nil, or_false] at hmem
  rcases hmem with rfl | rfl | rfl
  · exact ⟨["contracts", first], rfl⟩
  · exact ⟨["contracts", second], rfl⟩
  · exact ⟨["contracts", "sub", third], rfl⟩

end CorrectedFiles

namespace Check

/-- Three contracts of one key are reported before and after two of them get other names. -/
theorem duplicateNames_corrected_jettons :
    Naming.duplicateKey (.absolute ["w", "contracts", "my_jetton.fc"]) =
        Naming.duplicateKey (.absolute ["w", "contracts", "MyJetton.fc"]) ∧
      ∃ (ds ds' : List Diagnostic) (reported : List Path), reported ⊆ CorrectedFiles.jettons ∧
        (duplicateNames (CorrectedFiles.tree "MyJetton.fc" "my_jetton.tact" "myJETTON.func") {} (.absolute ["w"])).outcome = .ok ds ∧
        (duplicateNames (CorrectedFiles.tree "my_jetton.fc" "my_jetton.tact" "my_jetton.func") {} (.absolute ["w"])).outcome =
          .ok ds' ∧
        ds = reported.map (sharedNameAmong {} (.absolute ["w"]) (CorrectedFiles.jettons.filter isComparable)) ∧
        ds'.Perm (reported.map fun p => sharedNameAmong {} (.absolute ["w"])
          ((CorrectedFiles.jettons.map Naming.corrected).filter isComparable) (Naming.corrected p)) := by
  have hcorrected : CorrectedFiles.jettons.map Naming.corrected =
      CorrectedFiles.files "my_jetton.fc" "my_jetton.tact" "my_jetton.func" := by decide +kernel
  have hlisted' : projectFiles (CorrectedFiles.tree "my_jetton.fc" "my_jetton.tact" "my_jetton.func") {}
      (.absolute ["w", "contracts"]) = .ok (CorrectedFiles.files "my_jetton.fc" "my_jetton.tact" "my_jetton.func") := by
    decide +kernel
  have hfiles : IsCorrected (CorrectedFiles.tree "MyJetton.fc" "my_jetton.tact" "myJETTON.func")
      (CorrectedFiles.tree "my_jetton.fc" "my_jetton.tact" "my_jetton.func") {} (.absolute ["w"]) CorrectedFiles.jettons :=
    ⟨by decide +kernel, by decide +kernel, by decide +kernel, _, hlisted', List.Perm.of_eq hcorrected.symm⟩
  have hds := (duplicateNames_eq_ok hfiles.isDir).2 ⟨_, hfiles.listed, fun _ => CorrectedFiles.files_isWithin, rfl⟩
  have hds' := (duplicateNames_eq_ok hfiles.isDir').2 ⟨_, hlisted', fun _ => CorrectedFiles.files_isWithin, rfl⟩
  obtain ⟨hkey, -, -, hall⟩ := duplicateNames_corrected (.absolute ["w"])
  obtain ⟨reported, hsubset, hfirst, hsecond⟩ := hall _ _ _ _ _ _ hfiles hds hds'
  have hrenamed : Naming.renamed (.absolute ["w", "contracts", "MyJetton.fc"]) = .absolute ["w", "contracts", "my_jetton.fc"] := by
    decide +kernel
  refine ⟨?_, _, _, reported, hsubset, hds, hds', hfirst, hsecond⟩
  rw [← hrenamed]
  exact hkey (.absolute ["w", "contracts", "MyJetton.fc"]) (by decide +kernel)

end Check

end WorkspaceLint
