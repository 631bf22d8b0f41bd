import WorkspaceLint.Proofs.FileNames
import WorkspaceLint.Proofs.SourceScan

/-!
# Kinds of files

What the name of a source file tells of its category, under the default rules. A file of a scan is of the kind that its name
announces when the name is looked at and is not a bare suffix of contracts (`scan_announced`). Other files come into a scan as
wrappers and scripts: a link is looked at under its own name and taken for what it leads to, and a name that is nothing but a suffix
has none (`scan_misnames`).
-/

namespace WorkspaceLint

open Files (FileSystem)

namespace SourceFile

variable {fs : FileSystem} {rules : Rules} {root project path : Path} {targets : List Path} {f : SourceFile}

/-- The name of a source file ends as the names of its category do. -/
structure IsAnnounced (f : SourceFile) : Prop where
  /-- The name has one of the endings. -/
  known : ∃ e ∈ ({} : Rules).allExtensions, endsIn f.name e = true
  /-- The name is no declaration file's. -/
  noDeclaration : endsIn f.name ({} : Rules).declarationSuffix = false
  /-- Contracts are what ends in a suffix of contracts. -/
  contract : f.category = .contract ↔ ∃ e ∈ ({} : Rules).contractExtensions, endsIn f.name e = true
  /-- Tests are what has an ending of tests. -/
  test : f.category = .test ↔ ∃ e ∈ ({} : Rules).testSuffixes, endsIn f.name e = true
  /-- Wrappers and scripts have the ending of sources. -/
  source : f.category = .wrapper ∨ f.category = .script → endsIn f.name ({} : Rules).sourceExtension = true

/-! ## What decides the category -/

/-- The category of a file is decided by its name and the last name of a target. -/
theorem exists_categoryOf_of_mem_inProject (h : f ∈ inProject rules root targets path) :
    ∃ targetName, categoryOf? rules f.name f.suffix targetName = some (f.category, f.isCompileVariant) := by
  obtain ⟨location, -, -, target, -, hc⟩ := mem_inProject_iff.1 h
  obtain ⟨⟨category, isCompileVariant⟩, hfound, rfl⟩ := Option.map_eq_some_iff.1 hc
  exact ⟨target.name, hfound⟩

section Category

variable {name suffix targetName : String} {category : SourceCategory} {isCompileVariant : Bool}

/-- What a file is for, with what decides it. -/
theorem categoryOf?_cases (h : categoryOf? rules name suffix targetName = some (category, isCompileVariant)) :
    (category = .contract ∧ suffix ∈ rules.contractExtensions) ∨
      (category = .test ∧ suffix ∉ rules.contractExtensions ∧ ∃ e ∈ rules.testSuffixes, endsIn name e = true) ∨
      (category = .wrapper ∧ suffix ∉ rules.contractExtensions ∧ (¬∃ e ∈ rules.testSuffixes, endsIn name e = true) ∧
        targetName = rules.wrappersDir ∧ isCompileVariant = endsIn name rules.compileSuffix) ∨
      (category = .script ∧ suffix ∉ rules.contractExtensions ∧ (¬∃ e ∈ rules.testSuffixes, endsIn name e = true) ∧
        targetName = rules.scriptsDir) := by
  simp only [categoryOf?, List.any_eq_true] at h
  split at h
  · rename_i hcontract
    cases h
    exact Or.inl ⟨rfl, hcontract⟩
  rename_i hcontract
  split at h
  · rename_i htest
    cases h
    exact Or.inr (Or.inl ⟨rfl, hcontract, htest⟩)
  rename_i htest
  split at h
  · rename_i hwrapper
    cases h
    exact Or.inr (Or.inr (Or.inl ⟨rfl, hcontract, htest, hwrapper, rfl⟩))
  split at h
  · rename_i hscript
    cases h
    exact Or.inr (Or.inr (Or.inr ⟨rfl, hcontract, htest, hscript⟩))
  · nomatch h

theorem category_eq_contract_iff (h : categoryOf? rules name suffix targetName = some (category, isCompileVariant)) :
    category = .contract ↔ suffix ∈ rules.contractExtensions := by
  rcases categoryOf?_cases h with ⟨rfl, hcontract⟩ | ⟨rfl, hcontract, -⟩ | ⟨rfl, hcontract, -⟩ | ⟨rfl, hcontract, -⟩
  all_goals simp [hcontract]

theorem category_eq_test_iff (h : categoryOf? rules name suffix targetName = some (category, isCompileVariant)) :
    category = .test ↔ suffix ∉ rules.contractExtensions ∧ ∃ e ∈ rules.testSuffixes, endsIn name e = true := by
  rcases categoryOf?_cases h with ⟨rfl, hcontract⟩ | ⟨rfl, hcontract, htest⟩ | ⟨rfl, -, htest, -⟩ | ⟨rfl, -, htest, -⟩
  · exact ⟨nofun, fun h => absurd hcontract h.1⟩
  · exact ⟨fun _ => ⟨hcontract, htest⟩, fun _ => rfl⟩
  · exact ⟨nofun, fun h => absurd h.2 htest⟩
  · exact ⟨nofun, fun h => absurd h.2 htest⟩

/-- What is no contract and no test is a wrapper or a script. -/
theorem category_eq_wrapper_or_script (hcontract : category ≠ .contract) (htest : category ≠ .test) :
    category = .wrapper ∨ category = .script := by
  cases category with
  | contract => exact absurd rfl hcontract
  | script => exact Or.inr rfl
  | wrapper => exact Or.inl rfl
  | test => exact absurd rfl htest

end Category

/-! ## Endings of the default rules -/

/-- The suffix of a name is one of contracts when the name ends in one and goes on before it, and only then. -/
theorem suffix_mem_contractExtensions_iff {p : Path} : p.suffix ∈ ({} : Rules).contractExtensions ↔
    (∃ e ∈ ({} : Rules).contractExtensions, endsIn p.name e = true) ∧ p.name ∉ ({} : Rules).contractExtensions := by
  have hbare : ∀ e ∈ ({} : Rules).contractExtensions, String.ofList (splitSuffix e.toList).2 ∉ ({} : Rules).contractExtensions := by
    decide
  have hdots : ∀ e ∈ ({} : Rules).contractExtensions, e.toList.head? = some '.' ∧ e.toList.tail ≠ [] ∧ '.' ∉ e.toList.tail := by
    decide
  constructor
  · exact fun h => ⟨⟨p.suffix, h, endsIn_suffix p⟩, fun hname => hbare p.name hname h⟩
  · rintro ⟨⟨e, he, hends⟩, hname⟩
    obtain ⟨hhead, htail, hdot⟩ := hdots e he
    rw [suffix_eq_of_endsIn (List.eq_cons_of_mem_head? hhead) htail hdot hends fun heq => hname (heq ▸ he)]
    exact he

/-- The endings of tests end in the one of sources. -/
theorem endsIn_source_of_test {name : String} (h : ∃ e ∈ ({} : Rules).testSuffixes, endsIn name e = true) :
    endsIn name ({} : Rules).sourceExtension = true := by
  have hsource : ∀ e ∈ ({} : Rules).testSuffixes, ({} : Rules).sourceExtension.toList <:+ e.toList := by decide
  obtain ⟨e, he, hends⟩ := h
  rw [endsIn, List.isSuffixOf_iff_suffix] at hends ⊢
  exact (hsource e he).trans hends

/-- A name that ends as sources do is no bare suffix of contracts. -/
theorem not_mem_contractExtensions_of_source {name : String} (h : endsIn name ({} : Rules).sourceExtension = true) :
    name ∉ ({} : Rules).contractExtensions := by
  intro hmem
  obtain ⟨c, hc, hne⟩ := contractExtension_last hmem
  exact hne (Option.some.inj (hc.symm.trans (getLast?_of_endsIn h (c := 's') (by decide))))

/-- Tests are looked at. -/
theorem relevant_of_test {name : String} (h : ∃ e ∈ ({} : Rules).testSuffixes, endsIn name e = true) :
    isRelevantName {} name = true := by
  have hno : ∀ e ∈ ({} : Rules).testSuffixes, ¬({} : Rules).declarationSuffix.toList <:+ e.toList ∧
      ¬e.toList <:+ ({} : Rules).declarationSuffix.toList := by decide
  obtain ⟨e, he, hends⟩ := h
  have hdecl : endsIn name ({} : Rules).declarationSuffix = false := by
    by_contra hdecl
    rw [Bool.not_eq_false, endsIn, List.isSuffixOf_iff_suffix] at hdecl
    rw [endsIn, List.isSuffixOf_iff_suffix] at hends
    exact (List.suffix_or_suffix_of_suffix hdecl hends).elim (hno e he).1 (hno e he).2
  have hmem : e ∈ ({} : Rules).allExtensions := List.mem_append_right _ (List.mem_cons_of_mem _ he)
  rw [isRelevantName, hdecl, Bool.not_false, Bool.true_and, List.any_eq_true]
  exact ⟨e, hmem, hends⟩

/-! ## Files of a scan -/

/-- A file whose name decides its category is of the kind that the name announces when the name is looked at and is not a bare
suffix of contracts. -/
theorem isAnnounced_iff {targetName : String}
    (h : categoryOf? {} f.name f.suffix targetName = some (f.category, f.isCompileVariant)) :
    IsAnnounced f ↔ isRelevantName {} f.name = true ∧ f.name ∉ ({} : Rules).contractExtensions := by
  have hcontract := category_eq_contract_iff h
  have htest := category_eq_test_iff h
  constructor
  · intro hf
    refine ⟨?_, fun hname => ?_⟩
    · rw [isRelevantName, hf.noDeclaration, Bool.not_false, Bool.true_and, List.any_eq_true]
      exact hf.known
    · have hself : endsIn f.name f.name = true := by simp [endsIn]
      have hsuffix := hcontract.1 (hf.contract.2 ⟨f.name, hname, hself⟩)
      exact (suffix_mem_contractExtensions_iff.1 hsuffix).2 hname
  · rintro ⟨hrel, hname⟩
    rw [isRelevantName, Bool.and_eq_true, Bool.not_eq_true', List.any_eq_true] at hrel
    obtain ⟨hdecl, e, he, hends⟩ := hrel
    refine ⟨⟨e, he, hends⟩, hdecl, ?_, ?_, fun hsource => ?_⟩
    · exact (hcontract.trans suffix_mem_contractExtensions_iff).trans ⟨And.left, fun he => ⟨he, hname⟩⟩
    · exact htest.trans ⟨And.right, fun he => ⟨not_contract_of_source (endsIn_source_of_test he), he⟩⟩
    · rcases List.mem_append.1 he with he | he
      · have hc := hcontract.2 (suffix_mem_contractExtensions_iff.2 ⟨⟨e, he, hends⟩, hname⟩)
        rw [hc] at hsource
        exact absurd hsource (by simp)
      · rcases List.mem_cons.1 he with rfl | he
        · exact hends
        · exact endsIn_source_of_test ⟨e, he, hends⟩

/-- A file of a scan under the default rules is of the kind that its name announces exactly when its name is looked at and is not a
bare suffix of contracts. A file that is not is taken for a wrapper or a script; and one whose name is not looked at was found under
a path that ends in another name. -/
theorem scan_announced {dirs : List String} {files : List SourceFile} (h : (scan fs {} project dirs).outcome = .ok files)
    (hf : f ∈ files) :
    (IsAnnounced f ↔ isRelevantName {} f.name = true ∧ f.name ∉ ({} : Rules).contractExtensions) ∧
      (¬IsAnnounced f → f.category = .wrapper ∨ f.category = .script) ∧
      (isRelevantName {} f.name = false → ∃ c, fs.isFile? c = .ok true ∧ fs.resolve c = .ok f.path ∧
        isRelevantName {} c.name = true ∧ c.name ≠ f.name) := by
  obtain ⟨root, found, -, hfound, rfl⟩ := scan_eq_ok.1 h
  rw [mem_sort_eraseDups, mem_collect_ofTarget_iff hfound] at hf
  obtain ⟨targetName, hcategory⟩ := exists_categoryOf_of_mem_inProject hf.exists_at?.1
  have hiff := isAnnounced_iff hcategory
  refine ⟨hiff, fun hno => category_eq_wrapper_or_script (fun hc => hno ?_) fun ht => hno ?_, fun hrel => ?_⟩
  · have hsuffix := (category_eq_contract_iff hcategory).1 hc
    exact hiff.2 ⟨relevant_of_contract hsuffix, (suffix_mem_contractExtensions_iff.1 hsuffix).2⟩
  · have htest := ((category_eq_test_iff hcategory).1 ht).2
    exact hiff.2 ⟨relevant_of_test htest, not_mem_contractExtensions_of_source (endsIn_source_of_test htest)⟩
  · obtain ⟨target, -, -, c, -, hfile, hname, path, hres, hin⟩ := hf
    rw [← (of_mem_inProject hin).1] at hres
    refine ⟨c, hfile, hres, hname, fun heq => ?_⟩
    rw [heq, hrel] at hname
    nomatch hname

end SourceFile

namespace FileKinds

/-- A wrapper that is a declaration file under its own name, and one whose name is a bare suffix of contracts. -/
def tree : FileSystem where
  entries := [("w", .dir [("wrappers", .dir [(".tact", .file []), ("Counter.d.ts", .file []),
    ("Counter.ts", .link "Counter.d.ts"), ("Other.ts", .file [])])])]

/-- What the scan makes of a file of the wrappers. -/
def wrapper (name : String) : SourceFile where
  path := .absolute ["w", "wrappers", name]
  location := .ofParts ["wrappers", name]
  category := .wrapper
  isCompileVariant := false

/-- What the scan finds. -/
def found : List SourceFile := [wrapper ".tact", wrapper "Counter.d.ts", wrapper "Other.ts"]

theorem scan_tree : (SourceFile.scan tree {} (.absolute ["w"]) ["wrappers"]).outcome = .ok found := by
  have honce : found.eraseDups = found := by decide +kernel
  refine SourceFile.scan_eq_ok.2 ⟨.absolute ["w"], found, by decide +kernel, by decide +kernel, ?_⟩
  rw [honce, SourceFile.sort, List.mergeSort_of_pairwise]
  decide +kernel

end FileKinds

namespace SourceFile

/-- The wrapper under an ordinary name is what its name announces. -/
theorem scan_announced_other : (scan FileKinds.tree {} (.absolute ["w"]) ["wrappers"]).outcome = .ok FileKinds.found ∧
    FileKinds.wrapper "Other.ts" ∈ FileKinds.found ∧ IsAnnounced (FileKinds.wrapper "Other.ts") := by
  have hmem : FileKinds.wrapper "Other.ts" ∈ FileKinds.found := by simp [FileKinds.found]
  have hname : isRelevantName {} (FileKinds.wrapper "Other.ts").name = true ∧
      (FileKinds.wrapper "Other.ts").name ∉ ({} : Rules).contractExtensions := by decide +kernel
  exact ⟨FileKinds.scan_tree, hmem, (scan_announced FileKinds.scan_tree hmem).1.2 hname⟩

/-- A link under a name that is looked at makes a wrapper of a declaration file, and a contract whose name is nothing but its suffix
is taken for a wrapper. -/
theorem scan_misnames : FileKinds.tree.WellFormed ∧
    (scan FileKinds.tree {} (.absolute ["w"]) ["wrappers"]).outcome = .ok FileKinds.found ∧
      (FileKinds.wrapper "Counter.d.ts" ∈ FileKinds.found ∧
        endsIn (FileKinds.wrapper "Counter.d.ts").name ({} : Rules).declarationSuffix = true) ∧
      (FileKinds.wrapper ".tact" ∈ FileKinds.found ∧ endsIn (FileKinds.wrapper ".tact").name ".tact" = true ∧
        (FileKinds.wrapper ".tact").category ≠ .contract) := by
  refine ⟨by decide +kernel, FileKinds.scan_tree, ⟨?_, by decide +kernel⟩, ?_, by decide +kernel, by decide⟩
  · simp [FileKinds.found]
  · simp [FileKinds.found]

end SourceFile

end WorkspaceLint
