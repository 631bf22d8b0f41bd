import WorkspaceLint.Proofs.Sorting
import WorkspaceLint.Proofs.TargetDirs

/-!
# What a scan returns

The list of a scan, said by what stands in the tree: it holds the files that some path below a target directory leads to and that
the first target they lie in says the kind of, each once, in strictly ascending order of their locations; and which of two routes
to a file came first, or which target, does not show, as long as no target lies in another one (`scan_exact`).
-/

namespace WorkspaceLint

open Files (FileSystem Node)

namespace SourceFile

variable {fs : FileSystem} {rules : Rules} {root project location : Path} {targets targets' : List Path} {f : SourceFile}

/-! ## Routes to files -/

/-- Real directories lead from the directory that a path leads to down to an entry. -/
def IsEntryBelow (fs : FileSystem) (base candidate : Path) : Prop :=
  ∃ n names m, fs.stat? base = .ok n ∧ names ≠ [] ∧ n.at? names = some m ∧ candidate = base.below names

/-- A route to a file: from a target that is a directory real directories lead down to a path that leads to a file, whose name is
one that is looked at, and whose canonical path is the one given. -/
structure IsRoute (fs : FileSystem) (rules : Rules) (root target candidate path : Path) : Prop where
  /-- The target is a directory. -/
  isDir : fs.isDir? (root.join target) = .ok true
  /-- The path lies below it. -/
  below : IsEntryBelow fs (root.join target) candidate
  /-- The path leads to a file. -/
  isFile : fs.isFile? candidate = .ok true
  /-- The last name of the path is looked at. -/
  relevant : isRelevantName rules candidate.name = true
  /-- The file has the canonical path. -/
  resolves : fs.resolve candidate = .ok path

/-- A target holds a file of a project when its names are the first ones of the directory that the file lies in. -/
def Holds (target location : Path) : Prop := target.anchor = .relative ∧ target.parts <+: location.parent.parts

/-- A file that a scan should return: there is a route to it, it lies in the project and not in the dependency cache, and the
first target that holds it says what kind of file it is. -/
structure IsScanned (fs : FileSystem) (rules : Rules) (root : Path) (targets : List Path) (f : SourceFile) : Prop where
  /-- There is a route to the file. -/
  route : ∃ target ∈ targets, ∃ candidate, IsRoute fs rules root target candidate f.path
  /-- The file lies in the project, where its location says. -/
  inside : f.path.relativeTo? root = some f.location
  /-- No name of the location is that of the dependency cache. -/
  outsideCache : rules.dependencyCacheDir ∉ f.location.parts
  /-- The first target that holds the file makes it the file it is. -/
  kind : ∃ before target after, targets = before ++ target :: after ∧ Holds target f.location ∧
    (∀ other ∈ before, ¬Holds other f.location) ∧ classify? rules f.path f.location target = some f

theorem mem_descendants_iff_isEntryBelow (hw : fs.WellFormed) {base candidate : Path} :
    candidate ∈ fs.descendants base ↔ IsEntryBelow fs base candidate := by
  rw [FileSystem.descendants, Node.mem_descendants_iff (hw.directoryAt base), FileSystem.directoryAt, IsEntryBelow]
  constructor
  · rintro ⟨names, m, hne, hat, rfl⟩
    split at hat
    · rename_i es hes
      exact ⟨_, names, m, hes, hne, hat, rfl⟩
    · obtain ⟨name, rest, rfl⟩ := List.exists_cons_of_ne_nil hne
      cases hat
  · rintro ⟨n, names, m, hn, hne, hat, rfl⟩
    obtain ⟨name, rest, rfl⟩ := List.exists_cons_of_ne_nil hne
    obtain ⟨es, -, rfl, -, -⟩ := Node.eq_dir_of_at?_cons hat
    rw [hn]
    exact ⟨_, m, hne, hat, rfl⟩

/-- The target of a file is the first one that holds it. -/
theorem targetOf?_eq_some_iff {target : Path} :
    targetOf? targets location = some target ↔
      ∃ before after, targets = before ++ target :: after ∧ Holds target location ∧ ∀ other ∈ before, ¬Holds other location := by
  rw [targetOf?, List.find?_eq_some_iff_append]
  simp only [decide_eq_true_eq, Bool.not_eq_eq_eq_not, Bool.not_true, decide_eq_false_iff_not, List.isPrefixOf_iff_prefix, Holds]
  constructor
  · rintro ⟨hholds, before, after, htargets, hbefore⟩
    exact ⟨before, after, htargets, hholds, hbefore⟩
  · rintro ⟨before, after, htargets, hholds, hbefore⟩
    exact ⟨hholds, before, after, htargets, hbefore⟩

/-- What is found is what should be returned. -/
theorem isFound_iff (hw : fs.WellFormed) : IsFound fs rules root targets f ↔ IsScanned fs rules root targets f := by
  constructor
  · rintro ⟨target, htarget, hdir, c, hc, hfile, hname, path, hres, hin⟩
    obtain ⟨rfl, hlocation⟩ := of_mem_inProject hin
    obtain ⟨location, hl, hcache, holder, hholder, hclassify⟩ := mem_inProject_iff.1 hin
    rw [hlocation] at hl
    cases hl
    obtain ⟨before, after, htargets, hholds, hbefore⟩ := targetOf?_eq_some_iff.1 hholder
    exact ⟨⟨target, htarget, c, hdir, (mem_descendants_iff_isEntryBelow hw).1 hc, hfile, hname, hres⟩, hlocation, hcache,
      before, holder, after, htargets, hholds, hbefore, hclassify⟩
  · rintro ⟨⟨target, htarget, c, hroute⟩, hlocation, hcache, before, holder, after, htargets, hholds, hbefore, hclassify⟩
    refine ⟨target, htarget, hroute.isDir, c, (mem_descendants_iff_isEntryBelow hw).2 hroute.below, hroute.isFile,
      hroute.relevant, f.path, hroute.resolves, mem_inProject_iff.2 ⟨f.location, hlocation, hcache, holder, ?_, hclassify⟩⟩
    exact targetOf?_eq_some_iff.2 ⟨before, after, htargets, hholds, hbefore⟩

/-! ## Targets in any order -/

/-- No target lies in another one. -/
def Unnested (targets : List Path) : Prop := ∀ t ∈ targets, ∀ u ∈ targets, u.IsWithin t → u = t

/-- One of two targets that hold the same file lies in the other one. -/
theorem Holds.total {t u : Path} (ht : Holds t location) (hu : Holds u location) : u.IsWithin t ∨ t.IsWithin u :=
  (List.prefix_or_prefix_of_prefix ht.2 hu.2).imp (Path.isWithin_of_parts (hu.1.trans ht.1.symm))
    (Path.isWithin_of_parts (ht.1.trans hu.1.symm))

/-- Where no target lies in another one, the target of a file does not hang on their order. -/
theorem targetOf?_eq_of_mem_iff (hnested : Unnested targets) (hmem : ∀ t, t ∈ targets ↔ t ∈ targets') :
    targetOf? targets location = targetOf? targets' location := by
  have hholds : ∀ {targets target}, targetOf? targets location = some target → target ∈ targets ∧ Holds target location := by
    intro targets target h
    obtain ⟨before, after, rfl, h, -⟩ := targetOf?_eq_some_iff.1 h
    exact ⟨by simp, h⟩
  cases ht : targetOf? targets location with
  | none =>
    cases ht' : targetOf? targets' location with
    | none => rfl
    | some target =>
      obtain ⟨other, hother⟩ := exists_targetOf?_of_subset (fun t h => (hmem t).2 h) ht'
      rw [ht] at hother
      nomatch hother
  | some target =>
    obtain ⟨other, hother⟩ := exists_targetOf?_of_subset (fun t h => (hmem t).1 h) ht
    obtain ⟨htarget, hin⟩ := hholds ht
    obtain ⟨hother', hin'⟩ := hholds hother
    rw [hother, Option.some.injEq]
    rcases hin.total hin' with hwithin | hwithin
    · exact (hnested target htarget other ((hmem other).2 hother') hwithin).symm
    · exact hnested other ((hmem other).2 hother') target htarget hwithin

theorem inProject_eq_of_mem_iff (hnested : Unnested targets) (hmem : ∀ t, t ∈ targets ↔ t ∈ targets') (path : Path) :
    inProject rules root targets path = inProject rules root targets' path := by
  rw [inProject, inProject]
  split
  · rw [ofLocation?, ofLocation?, targetOf?_eq_of_mem_iff hnested hmem]
  · rfl

/-- Where no target lies in another one, what is found does not hang on their order. -/
theorem IsFound.of_mem_iff (hnested : Unnested targets) (hmem : ∀ t, t ∈ targets ↔ t ∈ targets')
    (h : IsFound fs rules root targets f) : IsFound fs rules root targets' f := by
  obtain ⟨target, htarget, hdir, c, hc, hfile, hname, path, hres, hin⟩ := h
  rw [inProject_eq_of_mem_iff hnested hmem] at hin
  exact ⟨target, (hmem target).1 htarget, hdir, c, hc, hfile, hname, path, hres, hin⟩

/-- What is found is known by its path. -/
theorem IsFound.eq_of_path (hw : fs.WellFormed) {g : SourceFile} (hf : IsFound fs rules root targets f)
    (hg : IsFound fs rules root targets g) (h : f.path = g.path) : f = g := by
  have hlocation : f.location = g.location := by
    obtain ⟨-, -, -, -, -, hfl⟩ := hf.exists_at?
    obtain ⟨-, -, -, -, -, hgl⟩ := hg.exists_at?
    rw [h, hgl] at hfl
    exact (Option.some.inj hfl).symm
  exact hf.eq_of_location hw hg (by rw [hlocation])

/-- A scan that succeeds returns the files that it should return, each under one path, in strictly ascending order of their
locations. When no target lies in another one, a scan of the same targets in another order, or repeated, returns the same. -/
theorem scan_exact (hw : fs.WellFormed) {dirs : List String} {files : List SourceFile}
    (h : (scan fs rules project dirs).outcome = .ok files) :
    ∃ root, fs.resolve project = .ok root ∧ (files.Pairwise fun f g => f.location.text < g.location.text) ∧
      (files.map (·.path)).Nodup ∧ (∀ f, f ∈ files ↔ IsScanned fs rules root (dirs.map Path.ofString) f) ∧
      ∀ dirs', Unnested (dirs.map Path.ofString) → (∀ t, t ∈ dirs.map Path.ofString ↔ t ∈ dirs'.map Path.ofString) →
        (scan fs rules project dirs').outcome = .ok files := by
  have ⟨root, found, hroot, hfound, hfiles⟩ := scan_eq_ok.1 h
  have hmem : ∀ f, f ∈ files ↔ IsFound fs rules root (dirs.map Path.ofString) f := fun f => by
    rw [hfiles, mem_sort_eraseDups, mem_collect_ofTarget_iff hfound]
  have hsorted : files.Pairwise fun f g => f.location.text < g.location.text := by
    rw [hfiles]
    refine pairwise_lt_mergeSort_of_key (fun f : SourceFile => f.location.text) (nodup_eraseDups found) fun f hf g hg heq => ?_
    rw [List.mem_eraseDups, mem_collect_ofTarget_iff hfound] at hf hg
    exact hf.eq_of_location hw hg heq
  have hnodup : files.Nodup := hsorted.imp fun {f g} hlt heq => by
    rw [heq] at hlt
    exact Std.lt_irrefl hlt
  refine ⟨root, hroot, hsorted, ?_, fun f => (hmem f).trans (isFound_iff hw), fun dirs' hnested hsame => ?_⟩
  · rw [List.nodup_map_iff_inj_on hnodup]
    exact fun f hf g hg heq => ((hmem f).1 hf).eq_of_path hw ((hmem g).1 hg) heq
  · obtain ⟨files', hfiles'⟩ := exists_scan_of_map_subset (fun t ht => (hsame t).2 ht) h
    obtain ⟨root', found', hroot', hfound', rfl⟩ := scan_eq_ok.1 hfiles'
    rw [hroot] at hroot'
    cases hroot'
    have hperm : found.eraseDups.Perm found'.eraseDups := perm_eraseDups fun f => by
      rw [mem_collect_ofTarget_iff hfound, mem_collect_ofTarget_iff hfound']
      refine ⟨IsFound.of_mem_iff hnested hsame, IsFound.of_mem_iff ?_ fun t => (hsame t).symm⟩
      exact fun t ht u hu hwithin => hnested t ((hsame t).2 ht) u ((hsame u).2 hu) hwithin
    have heq : sort found.eraseDups = sort found'.eraseDups := sort_eq_of_perm hperm fun f hf g hg hlocation => by
      rw [List.mem_eraseDups, mem_collect_ofTarget_iff hfound] at hf hg
      exact hf.eq_of_location hw hg hlocation
    rw [hfiles', hfiles, heq]

end SourceFile

namespace ExactScan

/-- A contract and a wrapper, and a link to each of them in the other one's directory. -/
def linkedTree : FileSystem where
  entries := [("w", .dir [("contracts", .dir [("counter.fc", .file []), ("other.ts", .link "../wrappers/Counter.ts")]),
    ("wrappers", .dir [("Counter.ts", .file []), ("other.fc", .link "../contracts/counter.fc")])])]

/-- The contract. -/
def contract : SourceFile where
  path := .absolute ["w", "contracts", "counter.fc"]
  location := .ofParts ["contracts", "counter.fc"]
  category := .contract
  isCompileVariant := false

/-- The wrapper. -/
def wrapper : SourceFile where
  path := .absolute ["w", "wrappers", "Counter.ts"]
  location := .ofParts ["wrappers", "Counter.ts"]
  category := .wrapper
  isCompileVariant := false

/-- What the walks of the contracts and then of the wrappers find: each file, and what the link beside it leads to. -/
def found : List SourceFile := [contract, wrapper, wrapper, contract]

end ExactScan

namespace SourceFile

/-- The contract and the wrapper are returned once each, whichever target is walked first, and how often. -/
theorem scan_exact_linkedTree :
    (scan ExactScan.linkedTree {} (.absolute ["w"]) ["contracts", "wrappers"]).outcome =
        .ok [ExactScan.contract, ExactScan.wrapper] ∧
      (scan ExactScan.linkedTree {} (.absolute ["w"]) ["wrappers", "contracts", "wrappers/"]).outcome =
        .ok [ExactScan.contract, ExactScan.wrapper] := by
  have hw : ExactScan.linkedTree.WellFormed := by decide +kernel
  have hrun : (scan ExactScan.linkedTree {} (.absolute ["w"]) ["contracts", "wrappers"]).outcome =
      .ok [ExactScan.contract, ExactScan.wrapper] := by
    have honce : ExactScan.found.eraseDups = [ExactScan.contract, ExactScan.wrapper] := by decide +kernel
    have hle : ExactScan.contract.location.text ≤ ExactScan.wrapper.location.text := by decide +kernel
    refine scan_eq_ok.2 ⟨.absolute ["w"], ExactScan.found, by decide +kernel, by decide +kernel, ?_⟩
    rw [honce, sort, List.mergeSort_of_pairwise]
    simpa using hle
  have hdirs : ["contracts", "wrappers"].map Path.ofString = [.ofParts ["contracts"], .ofParts ["wrappers"]] := by decide +kernel
  have hdirs' : ["wrappers", "contracts", "wrappers/"].map Path.ofString =
      [.ofParts ["wrappers"], .ofParts ["contracts"], .ofParts ["wrappers"]] := by decide +kernel
  have hnested : Unnested [.ofParts ["contracts"], .ofParts ["wrappers"]] := by
    simp only [Unnested, Path.isWithin_iff]
    decide
  obtain ⟨root, -, -, -, -, hany⟩ := scan_exact hw hrun
  rw [hdirs] at hany
  refine ⟨hrun, hany _ hnested fun t => ?_⟩
  rw [hdirs']
  simp only [List.mem_cons, List.not_mem_nil, or_false]
  rw [or_left_comm, or_self]

end SourceFile

end WorkspaceLint
