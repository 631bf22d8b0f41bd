import WorkspaceLint.Proofs.SampleTree
import WorkspaceLint.Proofs.SourceScan

/-!
# Scanning more target directories

What a file is taken for hangs on the first of the listed targets that it lies in, and there on the last name of that target
alone. So a scan of more targets still finds contracts and tests, and it finds a wrapper or a script exactly when the first
target that now holds it is of the same name as before (`scan_more_targets`): a target inside of another one, listed before it,
takes its files away.
-/

namespace WorkspaceLint

open Files (FileSystem)

variable {fs : FileSystem} {rules : Rules} {root project path location : Path} {targets targets' : List Path} {f : SourceFile}

namespace SourceFile

/-! ## More targets -/

/-- A file that lies in one of some targets lies in one of more targets. -/
theorem exists_targetOf?_of_subset (h : targets ⊆ targets') {target : Path} (ht : targetOf? targets location = some target) :
    ∃ target', targetOf? targets' location = some target' := by
  rw [targetOf?] at ht
  have hin := List.find?_some ht
  rw [← Option.isSome_iff_exists, targetOf?, List.find?_isSome]
  exact ⟨target, h (List.mem_of_find?_eq_some ht), hin⟩

/-- What a file is taken for under a directory of one name it is taken for under one of another name when its own name decides,
or when the names are the same. -/
theorem categoryOf?_targetName {name suffix a b : String} {found : SourceCategory × Bool}
    (h : categoryOf? rules name suffix a = some found) :
    categoryOf? rules name suffix b = some found ↔ found.1 = .contract ∨ found.1 = .test ∨ b = a := by
  rw [categoryOf?] at h ⊢
  by_cases hcontract : suffix ∈ rules.contractExtensions
  · rw [if_pos hcontract] at h ⊢
    cases h
    simp
  rw [if_neg hcontract] at h ⊢
  by_cases htest : rules.testSuffixes.any (endsIn name) = true
  · rw [if_pos htest] at h ⊢
    cases h
    simp
  rw [if_neg htest] at h ⊢
  by_cases hwrapper : a = rules.wrappersDir
  · rw [if_pos hwrapper] at h
    cases h
    by_cases hb : b = rules.wrappersDir
    · rw [if_pos hb]
      simp [hb, hwrapper]
    · have hne : b ≠ a := fun hba => hb (hba.trans hwrapper)
      rw [if_neg hb]
      split <;> simp [hne]
  rw [if_neg hwrapper] at h
  by_cases hscript : a = rules.scriptsDir
  · rw [if_pos hscript] at h
    cases h
    by_cases hb : b = a
    · rw [hb, if_neg hwrapper, if_pos hscript]
      simp
    · rw [if_neg (fun hbs => hb (hbs.trans hscript.symm) : b ≠ rules.scriptsDir)]
      split <;> simp [hb]
  · rw [if_neg hscript] at h
    nomatch h

/-- What a canonical path stands for among some targets it stands for among more of them when the name of the file decides, or
when the first target that it lies in has the same name in both. -/
theorem mem_inProject_of_subset (h : targets ⊆ targets') (hf : f ∈ inProject rules root targets path) :
    f ∈ inProject rules root targets' path ↔ f.category = .contract ∨ f.category = .test ∨
      (targetOf? targets' f.location).map Path.name = (targetOf? targets f.location).map Path.name := by
  obtain ⟨-, hlocation⟩ := of_mem_inProject hf
  obtain ⟨location, hl, hcache, target, ht, hc⟩ := mem_inProject_iff.1 hf
  rw [hlocation] at hl
  cases hl
  obtain ⟨target', ht'⟩ := exists_targetOf?_of_subset h ht
  obtain ⟨found, hfound, hfile⟩ := Option.map_eq_some_iff.1 hc
  have hsame : classify? rules path f.location target' = some f ↔ f.category = .contract ∨ f.category = .test ∨
      target'.name = target.name := by
    rw [← hfile, ← categoryOf?_targetName hfound, classify?, Option.map_eq_some_iff]
    constructor
    · rintro ⟨⟨category, isCompileVariant⟩, hfound', hf'⟩
      cases hf'
      exact hfound'
    · exact fun hfound' => ⟨found, hfound', rfl⟩
  rw [mem_inProject_iff, ht, ht', Option.map_some, Option.map_some, Option.some_inj, ← hsame]
  constructor
  · rintro ⟨location, hl, -, target'', ht'', hc'⟩
    rw [hlocation] at hl
    cases hl
    rw [ht'] at ht''
    cases ht''
    exact hc'
  · exact fun hc' => ⟨f.location, hlocation, hcache, target', ht', hc'⟩

/-- What the listing of a target directory leads to is there whatever the other targets are. -/
theorem exists_ofTarget {target : Path} {found : List SourceFile} (h : (ofTarget fs rules root targets target).outcome = .ok found)
    (targets' : List Path) : ∃ found', (ofTarget fs rules root targets' target).outcome = .ok found' := by
  rw [outcome_ofTarget] at h ⊢
  cases hb : fs.isDir? (root.join target) with
  | error e => rw [hb] at h; nomatch h
  | ok isDir =>
    rw [hb] at h
    cases isDir with
    | false => exact ⟨[], rfl⟩
    | true =>
      obtain ⟨g, hg, -⟩ := Logged.collect_eq_ok.1 h
      exact Logged.exists_collect_iff.2 fun c hc => exists_ofCandidate (canLookUp_of_ofCandidate (hg c hc)) rules root targets'

/-- A scan of some of the targets of a scan, however they are written, succeeds when that one does. -/
theorem exists_scan_of_map_subset {dirs dirs' : List String} (h : dirs.map Path.ofString ⊆ dirs'.map Path.ofString)
    {files' : List SourceFile} (hscan : (scan fs rules project dirs').outcome = .ok files') :
    ∃ files, (scan fs rules project dirs).outcome = .ok files := by
  obtain ⟨root, found', hroot, hfound', -⟩ := scan_eq_ok.1 hscan
  obtain ⟨g, hg, -⟩ := Logged.collect_eq_ok.1 hfound'
  obtain ⟨found, hfound⟩ := Logged.exists_collect_iff.2 fun target (ht : target ∈ dirs.map Path.ofString) =>
    exists_ofTarget (hg target (h ht)) (dirs.map Path.ofString)
  exact ⟨_, scan_eq_ok.2 ⟨root, found, hroot, hfound, rfl⟩⟩

theorem exists_scan_of_subset {dirs dirs' : List String} (h : dirs ⊆ dirs') {files' : List SourceFile}
    (hscan : (scan fs rules project dirs').outcome = .ok files') : ∃ files, (scan fs rules project dirs).outcome = .ok files :=
  exists_scan_of_map_subset (List.map_subset _ h) hscan

/-- What is found below some targets is found below more of them when it is what its canonical path stands for among these. -/
theorem IsFound.iff_of_subset (h : targets ⊆ targets') (hf : IsFound fs rules root targets f) :
    IsFound fs rules root targets' f ↔ f ∈ inProject rules root targets' f.path := by
  refine ⟨fun hf' => hf'.exists_at?.1, fun hin => ?_⟩
  obtain ⟨target, htarget, hdir, c, hc, hfile, hname, path, hres, hpath⟩ := hf
  refine ⟨target, h htarget, hdir, c, hc, hfile, hname, path, hres, ?_⟩
  rw [← (of_mem_inProject hpath).1]
  exact hin

end SourceFile

/-! ## Targets in targets -/

namespace TargetDirs

/-- A project with one wrapper, which lies in a directory of the wrappers. -/
def tree : FileSystem :=
  SampleTree.withProject [("wrappers", .dir [("sub", .dir [("Counter.ts", .file [])])])]

/-- The wrapper, as a scan of the wrappers finds it. -/
def wrapper : SourceFile where
  path := .absolute ["w", "wrappers", "sub", "Counter.ts"]
  location := .ofParts ["wrappers", "sub", "Counter.ts"]
  category := .wrapper
  isCompileVariant := false

end TargetDirs

namespace SourceFile

/-- When a scan of some target directories succeeds, so does one of some of them, and a file that the smaller scan found is in the
larger one just as it was when it is a contract or a test, or when the first target of the larger one that it lies in has the same
last name as the first target of the smaller one that it lies in. -/
theorem scan_more_targets {dirs dirs' : List String} (h : dirs ⊆ dirs') {files' : List SourceFile}
    (hscan : (scan fs rules project dirs').outcome = .ok files') :
    ∃ files, (scan fs rules project dirs).outcome = .ok files ∧ ∀ f ∈ files,
      (f ∈ files' ↔ f.category = .contract ∨ f.category = .test ∨
        (targetOf? (dirs'.map Path.ofString) f.location).map Path.name =
          (targetOf? (dirs.map Path.ofString) f.location).map Path.name) := by
  obtain ⟨files, hfiles⟩ := exists_scan_of_subset h hscan
  refine ⟨files, hfiles, fun f hf => ?_⟩
  have hsub : dirs.map Path.ofString ⊆ dirs'.map Path.ofString := List.map_subset _ h
  obtain ⟨root, found, hroot, hfound, rfl⟩ := scan_eq_ok.1 hfiles
  obtain ⟨root', found', hroot', hfound', rfl⟩ := scan_eq_ok.1 hscan
  rw [hroot] at hroot'
  cases hroot'
  rw [mem_sort_eraseDups, mem_collect_ofTarget_iff hfound] at hf
  rw [mem_sort_eraseDups, mem_collect_ofTarget_iff hfound', hf.iff_of_subset hsub, mem_inProject_of_subset hsub hf.exists_at?.1]

/-- The wrapper is found when its directory is listed after the wrappers. -/
theorem scan_more_targets_nestedLast :
    ["wrappers"] ⊆ ["wrappers", "wrappers/sub"] ∧ ∃ files',
      (scan TargetDirs.tree {} (.absolute ["w"]) ["wrappers", "wrappers/sub"]).outcome = .ok files' ∧ TargetDirs.wrapper ∈ files' := by
  have hsub : ["wrappers"] ⊆ ["wrappers", "wrappers/sub"] := by simp
  have hfiles : (scan TargetDirs.tree {} (.absolute ["w"]) ["wrappers"]).outcome = .ok [TargetDirs.wrapper] := by decide +kernel
  have hfiles' : (scan TargetDirs.tree {} (.absolute ["w"]) ["wrappers", "wrappers/sub"]).outcome = .ok [TargetDirs.wrapper] := by
    decide +kernel
  obtain ⟨files, hscan, hiff⟩ := scan_more_targets hsub hfiles'
  rw [hfiles] at hscan
  cases hscan
  exact ⟨hsub, _, hfiles', (hiff TargetDirs.wrapper List.mem_cons_self).2 (Or.inr (Or.inr (by decide)))⟩

/-- The wrapper is lost when its directory is listed before the wrappers. -/
theorem scan_loses_nestedFirst :
    TargetDirs.tree.WellFormed ∧ ["wrappers"] ⊆ ["wrappers/sub", "wrappers"] ∧
      (scan TargetDirs.tree {} (.absolute ["w"]) ["wrappers"]).outcome = .ok [TargetDirs.wrapper] ∧
      (scan TargetDirs.tree {} (.absolute ["w"]) ["wrappers/sub", "wrappers"]).outcome = .ok [] := by
  refine ⟨?_, by simp, ?_, ?_⟩
  · decide +kernel
  · decide +kernel
  · decide +kernel

end SourceFile

end WorkspaceLint
