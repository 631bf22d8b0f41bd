import WorkspaceLint.Discovery
import WorkspaceLint.Proofs.Files.Reach
import WorkspaceLint.Proofs.Files.Shape
import WorkspaceLint.Proofs.Outcome
import WorkspaceLint.Proofs.Sorting
import Mathlib.Data.List.Basic

/-!
# What a discovery finds

A discovery that succeeds has classified each candidate directory (`discover_eq_ok`), and the candidate directories are those
that the walk reaches and that hold a manifest or a directory by which a project is known (`mem_candidateDirs_iff`).
-/

namespace WorkspaceLint

namespace Files

/-! ## Names below a directory -/

/-- Names whose paths pass a test are found when the test has an answer for each. A name that stands twice has one answer, so the
answers are a function of the name. -/
theorem namesBelow_eq_ok {test : Path → Except Failure Bool} {directory : Path} {names found : List String} :
    namesBelow test directory names = .ok found ↔
      ∃ g : String → Bool, (∀ x ∈ names, test (directory.join (Path.ofString x)) = .ok (g x)) ∧ found = names.filter g := by
  induction names generalizing found with
  | nil =>
    rw [namesBelow]
    constructor
    · intro h
      cases h
      exact ⟨fun _ => true, by simp, rfl⟩
    · rintro ⟨_, -, rfl⟩
      rfl
  | cons name rest ih =>
    rw [namesBelow]
    constructor
    · intro h
      cases ht : test (directory.join (Path.ofString name)) with
      | error e => rw [ht] at h; nomatch h
      | ok passes =>
        rw [ht] at h
        cases hr : namesBelow test directory rest with
        | error e => rw [hr] at h; nomatch h
        | ok more =>
          rw [hr] at h
          cases h
          obtain ⟨g, hg, rfl⟩ := ih.1 hr
          refine ⟨fun x => if x = name then passes else g x, ?_, ?_⟩
          · intro x hx
            dsimp only
            by_cases hxn : x = name
            · rw [if_pos hxn, hxn, ht]
            · rw [if_neg hxn]
              exact hg x ((List.mem_cons.1 hx).resolve_left hxn)
          · have hrest : ∀ x ∈ rest, (if x = name then passes else g x) = g x := by
              intro x hx
              by_cases hxn : x = name
              · subst hxn
                have := hg x hx
                rw [ht] at this
                rw [if_pos rfl]
                exact Except.ok.inj this
              · rw [if_neg hxn]
            rw [List.filter_cons, if_pos rfl, List.filter_congr hrest]
    · rintro ⟨g, hg, rfl⟩
      rw [hg name List.mem_cons_self, ih.2 ⟨g, fun x hx => hg x (List.mem_cons_of_mem _ hx), rfl⟩, List.filter_cons]
      rfl

/-- The names that are found below a directory are those whose test has the answer yes. -/
theorem eq_filter_of_namesBelow {test : Path → Except Failure Bool} {directory : Path} {names found : List String}
    (h : namesBelow test directory names = .ok found) :
    found = names.filter fun name => test (directory.join (Path.ofString name)) = .ok true := by
  obtain ⟨g, hg, rfl⟩ := namesBelow_eq_ok.1 h
  refine List.filter_congr fun name hname => ?_
  rw [hg name hname]
  simp

/-- Some name is found below a directory when there is one whose test has the answer yes. -/
theorem ne_nil_iff_of_namesBelow {test : Path → Except Failure Bool} {directory : Path} {names found : List String}
    (h : namesBelow test directory names = .ok found) :
    found ≠ [] ↔ ∃ name ∈ names, test (directory.join (Path.ofString name)) = .ok true := by
  rw [eq_filter_of_namesBelow h, Ne, List.filter_eq_nil_iff]
  simp

/-- Tests that give the same for the paths of names find the same names. -/
theorem namesBelow_congr {test test' : Path → Except Failure Bool} {directory : Path} {names : List String}
    (h : ∀ x ∈ names, test (directory.join (Path.ofString x)) = test' (directory.join (Path.ofString x))) :
    namesBelow test directory names = namesBelow test' directory names := by
  induction names with
  | nil => rfl
  | cons name rest ih =>
    rw [namesBelow, namesBelow, h name List.mem_cons_self, ih fun x hx => h x (List.mem_cons_of_mem _ hx)]

theorem exists_namesBelow_iff {test : Path → Except Failure Bool} {directory : Path} {names : List String} :
    (∃ found, namesBelow test directory names = .ok found) ↔
      ∀ x ∈ names, ∃ b, test (directory.join (Path.ofString x)) = .ok b := by
  constructor
  · rintro ⟨found, h⟩ x hx
    obtain ⟨g, hg, -⟩ := namesBelow_eq_ok.1 h
    exact ⟨g x, hg x hx⟩
  · intro h
    refine ⟨_, namesBelow_eq_ok.2 ⟨fun x => (test (directory.join (Path.ofString x))).toOption.getD false, fun x hx => ?_, rfl⟩⟩
    obtain ⟨b, hb⟩ := h x hx
    dsimp only
    rw [hb]
    rfl

end Files

namespace Discovery

open Files (FileSystem)

/-! ## Candidate directories -/

/-- The candidate directories are those of the visits of a walk, each once, in the order of paths. -/
theorem candidateDirs_eq_ok {fs : FileSystem} {rules : Rules} {root : Path} {dirs : List Path} :
    candidateDirs fs rules root = .ok dirs ↔ ∃ visits, fs.walkFrom rules.enters root = .ok visits ∧
      dirs = Path.sort ((visits.filter (isCandidate rules)).map (·.path)).eraseDups := by
  rw [candidateDirs]
  cases fs.walkFrom rules.enters root with
  | error e => simp [Except.map]
  | ok visits => simp [Except.map, eq_comm]

/-- Candidate directories are found from every path without a null character. -/
theorem exists_candidateDirs (fs : FileSystem) (rules : Rules) {root : Path} (h : '\x00' ∉ root.text.toList) :
    ∃ dirs, candidateDirs fs rules root = .ok dirs := by
  obtain ⟨visits, hvisits⟩ := FileSystem.exists_walkFrom fs rules.enters h
  exact ⟨_, candidateDirs_eq_ok.2 ⟨visits, hvisits, rfl⟩⟩

/-- No candidate directory stands twice. -/
theorem candidateDirs_nodup {fs : FileSystem} {rules : Rules} {root : Path} {dirs : List Path}
    (h : candidateDirs fs rules root = .ok dirs) : dirs.Nodup := by
  obtain ⟨visits, -, rfl⟩ := candidateDirs_eq_ok.1 h
  exact (List.mergeSort_perm _ _).nodup_iff.2 (nodup_eraseDups _)

/-- The candidate directories stand in the order of their paths. -/
theorem candidateDirs_pairwise {fs : FileSystem} {rules : Rules} {root : Path} {dirs : List Path}
    (h : candidateDirs fs rules root = .ok dirs) : dirs.Pairwise fun p q => Path.le p q := by
  obtain ⟨visits, -, rfl⟩ := candidateDirs_eq_ok.1 h
  exact Path.pairwise_sort _

/-- Candidate directories that the walk meets in the order of their paths stay in that order. -/
theorem candidateDirs_of_pairwise {fs : FileSystem} {rules : Rules} {root : Path} {dirs : List Path}
    (h : (fs.walkFrom rules.enters root).map (fun visits =>
      ((visits.filter (isCandidate rules)).map (·.path)).eraseDups) = .ok dirs)
    (hsorted : dirs.Pairwise fun p q => Path.le p q) : candidateDirs fs rules root = .ok dirs := by
  cases hv : fs.walkFrom rules.enters root with
  | error e =>
    rw [hv] at h
    nomatch h
  | ok visits =>
    rw [hv] at h
    have hdirs : ((visits.filter (isCandidate rules)).map (·.path)).eraseDups = dirs := Except.ok.inj h
    exact candidateDirs_eq_ok.2 ⟨visits, hv, by rw [hdirs, Path.sort_eq_self hsorted]⟩

/-- A directory that the walk reaches and that holds a manifest or a directory by which a project is known. -/
def IsCandidateDir (fs : FileSystem) (rules : Rules) (root d : Path) : Prop :=
  ∃ es, fs.Reaches rules.enters root d es ∧
    ((∃ n, es.lookup rules.manifestName = some n ∧ fs.leadsToDir d rules.manifestName n = false) ∨
      ∃ name ∈ rules.characteristicDirs, rules.enters name = true ∧
        ∃ n, es.lookup name = some n ∧ fs.leadsToDir d name n = true)

/-- A directory that the walk reaches and whose manifest is a file is a candidate. -/
theorem isCandidateDir_of_isFile {fs : FileSystem} (hw : fs.WellFormed) {rules : Rules} {root d : Path}
    {es : List (String × Files.Node)} (h : fs.Reaches rules.enters root d es) (hname : Files.IsStep rules.manifestName)
    (hfile : fs.isFile? (d.child rules.manifestName) = .ok true) : IsCandidateDir fs rules root d := by
  obtain ⟨n, m, hn, -, hk, hl⟩ := h.lookup_of_leadsTo hw hname hfile
  refine ⟨es, h, Or.inl ⟨n, hn, hl.trans ?_⟩⟩
  cases m with
  | file _ => rfl
  | link _ => rfl
  | dir _ => nomatch hk

/-- A directory that the walk reaches and that holds a directory by which a project is known is a candidate. -/
theorem isCandidateDir_of_isDir {fs : FileSystem} (hw : fs.WellFormed) {rules : Rules} {root d : Path}
    {es : List (String × Files.Node)} (h : fs.Reaches rules.enters root d es) {name : String}
    (hname : name ∈ rules.characteristicDirs) (hstep : Files.IsStep name) (henters : rules.enters name = true)
    (hdir : fs.isDir? (d.child name) = .ok true) : IsCandidateDir fs rules root d := by
  obtain ⟨n, m, hn, -, hk, hl⟩ := h.lookup_of_leadsTo hw hstep hdir
  exact ⟨es, h, Or.inr ⟨name, hname, henters, n, hn, hl.trans hk⟩⟩

/-- The candidate directories are the directories that the walk reaches and that hold a manifest or a directory by which a
project is known. -/
theorem mem_candidateDirs_iff {fs : FileSystem} (hw : fs.WellFormed) {rules : Rules} {root : Path} {dirs : List Path}
    (h : candidateDirs fs rules root = .ok dirs) {d : Path} : d ∈ dirs ↔ IsCandidateDir fs rules root d := by
  obtain ⟨visits, hv, rfl⟩ := candidateDirs_eq_ok.1 h
  simp only [Path.sort, List.mem_mergeSort, List.mem_eraseDups, List.mem_map]
  constructor
  · rintro ⟨v, hmem, rfl⟩
    obtain ⟨hv', hc⟩ := List.mem_filter.1 hmem
    obtain ⟨directory, es, hr, rfl⟩ := (FileSystem.mem_walkFrom_iff hw hv).1 hv'
    refine ⟨es, hr, ?_⟩
    rw [isCandidate, Bool.or_eq_true, List.contains_iff_mem, FileSystem.mem_visit_files (hr.wellFormed hw),
      List.any_eq_true] at hc
    rcases hc with hc | ⟨name, hname, hc⟩
    · exact Or.inl hc
    · obtain ⟨hn, hk⟩ := (FileSystem.mem_visit_dirs (hr.wellFormed hw)).1 hname
      exact Or.inr ⟨name, List.contains_iff_mem.1 hc, hk, hn⟩
  · rintro ⟨es, hr, hc⟩
    refine ⟨fs.visit rules.enters d es, List.mem_filter.2 ⟨(FileSystem.mem_walkFrom_iff hw hv).2 ⟨d, es, hr, rfl⟩, ?_⟩, rfl⟩
    rw [isCandidate, Bool.or_eq_true, List.contains_iff_mem, FileSystem.mem_visit_files (hr.wellFormed hw),
      List.any_eq_true]
    rcases hc with hc | ⟨name, hname, hk, hn⟩
    · exact Or.inl hc
    · exact Or.inr ⟨name, (FileSystem.mem_visit_dirs (hr.wellFormed hw)).2 ⟨hn, hk⟩, List.contains_iff_mem.2 hname⟩

/-! ## Classification -/

/-- A directory that is classified has been looked at for a manifest and for the directories by which a project is known. -/
theorem classify_eq_ok {fs : FileSystem} {rules : Rules} {scanRoot d : Path} {c : Candidate} {ds : List Diagnostic} :
    (classify fs rules scanRoot d).outcome = .ok (c, ds) ↔
      ∃ hasManifest existing, fs.isFile? (d.join (Path.ofString rules.manifestName)) = .ok hasManifest ∧
        Files.namesBelow fs.isDir? d rules.characteristicDirs = .ok existing ∧
        (if hasManifest then Check.structureOf fs rules scanRoot d
          else Logged.ok (if existing = [] then [] else [scaffoldDiagnostic rules scanRoot d existing])).outcome = .ok ds ∧
        c = ⟨d, hasManifest, existing ≠ [], classificationOf hasManifest existing ds⟩ := by
  simp only [classify, Logged.bind_eq_ok, Logged.outcome_ofExcept, Logged.pure_eq_ok]
  constructor
  · rintro ⟨hasManifest, h1, existing, h2, h3⟩
    refine ⟨hasManifest, existing, h1, h2, ?_⟩
    cases hasManifest
    all_goals
      simp only [Bool.false_eq_true, if_false, if_true, Logged.bind_eq_ok, Logged.outcome_ok, Except.ok.injEq,
        Prod.mk.injEq] at h3 ⊢
      obtain ⟨ds', hds, rfl, rfl⟩ := h3
      exact ⟨hds, rfl⟩
  · rintro ⟨hasManifest, existing, h1, h2, h3, rfl⟩
    refine ⟨hasManifest, h1, existing, h2, ?_⟩
    cases hasManifest
    all_goals
      simp only [Bool.false_eq_true, if_false, if_true, Logged.bind_eq_ok, Logged.outcome_ok, Except.ok.injEq,
        Prod.mk.injEq] at h3 ⊢
      exact ⟨ds, h3, rfl, rfl⟩

theorem root_of_classify {fs : FileSystem} {rules : Rules} {scanRoot d : Path} {p : Candidate × List Diagnostic}
    (h : (classify fs rules scanRoot d).outcome = .ok p) :
    p.1.root = d := by
  obtain ⟨c, ds⟩ := p
  obtain ⟨-, -, -, -, -, rfl⟩ := classify_eq_ok.1 h
  rfl

/-- What a directory is classified as hangs on the shape of the tree and the text of its manifest alone. -/
theorem classify_congr {fs fs' : FileSystem} {rules : Rules} {scanRoot d : Path} (h : Files.SameShape fs fs')
    (ht : fs.text? (d.join (Path.ofString rules.manifestName)) = fs'.text? (d.join (Path.ofString rules.manifestName))) :
    classify fs rules scanRoot d = classify fs' rules scanRoot d := by
  have hmanifest : Check.manifest fs rules scanRoot d = Check.manifest fs' rules scanRoot d := by
    rw [Check.manifest, Check.manifest, loadJsonMap, loadJsonMap, loadJson, loadJson, ht]
  have hrequired : Check.required fs = Check.required fs' := by
    funext path diagnostic
    rw [Check.required, Check.required, h.exists?]
  have hstructure : Check.structureOf fs rules scanRoot d = Check.structureOf fs' rules scanRoot d := by
    rw [Check.structureOf, Check.structureOf, hmanifest, hrequired]
  rw [classify, classify, h.isFile?, h.isDir?, hstructure]

theorem classifyLogged_eq_ok {fs : FileSystem} {rules : Rules} {scanRoot d : Path}
    {found : List (Candidate × List Diagnostic)} :
    (classifyLogged fs rules scanRoot d).outcome = .ok found ↔
      ∃ p, (classify fs rules scanRoot d).outcome = .ok p ∧ found = [p] := by
  simp only [classifyLogged, Logged.bind_eq_ok, Logged.outcome_log, Logged.pure_eq_ok, Logged.outcome_ok, Except.ok.injEq]
  constructor
  · rintro ⟨p, hp, -, -, rfl⟩
    exact ⟨p, hp, rfl⟩
  · rintro ⟨p, hp, rfl⟩
    exact ⟨p, hp, (), trivial, rfl⟩

/-! ## Discovery -/

/-- A discovery that succeeds has classified every candidate directory, and its result is what they were classified as. -/
theorem discover_eq_ok {fs : FileSystem} {rules : Rules} {scanRoot : Path} {r : Result} :
    (discover fs rules scanRoot).outcome = .ok r ↔
      ∃ root dirs, ∃ g : Path → Candidate × List Diagnostic,
        fs.resolve scanRoot = .ok root ∧ candidateDirs fs rules root = .ok dirs ∧
        (∀ d ∈ dirs, (classify fs rules root d).outcome = .ok (g d)) ∧
        r = ⟨dirs.map fun d => (g d).1, dirs.flatMap fun d => (g d).2⟩ := by
  simp only [discover, Logged.bind_eq_ok, Logged.outcome_ofExcept, Logged.pure_eq_ok, Logged.outcome_ok, Except.ok.injEq]
  constructor
  · rintro ⟨root, hroot, dirs, hdirs, found, hfound, rfl⟩
    obtain ⟨h, hh, rfl⟩ := Logged.collect_eq_ok.1 hfound
    let g : Path → Candidate × List Diagnostic := fun d => (h d).headD (⟨d, false, false, .ignorable⟩, [])
    have hg : ∀ d ∈ dirs, (classify fs rules root d).outcome = .ok (g d) ∧ h d = [g d] := by
      intro d hd
      obtain ⟨p, hp, he⟩ := classifyLogged_eq_ok.1 (hh d hd)
      have hgp : g d = p := by
        dsimp only [g]
        rw [he]
        rfl
      rw [hgp]
      exact ⟨hp, he⟩
    refine ⟨root, dirs, g, hroot, hdirs, fun d hd => (hg d hd).1, ?_⟩
    have hflat : dirs.flatMap h = dirs.map g := by
      rw [List.map_eq_flatMap]
      exact List.flatMap_congr fun d hd => (hg d hd).2
    rw [hflat, List.map_map, List.flatMap_map]
    rfl
  · rintro ⟨root, dirs, g, hroot, hdirs, hg, rfl⟩
    refine ⟨root, hroot, dirs, hdirs, dirs.map g, Logged.collect_eq_ok.2 ⟨fun d => [g d], ?_, ?_⟩, ?_⟩
    · exact fun d hd => classifyLogged_eq_ok.2 ⟨g d, hg d hd, rfl⟩
    · rw [List.map_eq_flatMap]
    · rw [List.map_map, List.flatMap_map]
      rfl

/-- The roots of projects are reached from the canonical path of the scan root. -/
theorem reaches_of_mem_validRoots {fs : FileSystem} (hw : fs.WellFormed) {rules : Rules} {scanRoot root : Path}
    (hroot : fs.resolve scanRoot = .ok root) {found : Result} (h : (discover fs rules scanRoot).outcome = .ok found)
    {project : Path} (hp : project ∈ found.validRoots) : ∃ es, fs.Reaches rules.enters root project es := by
  obtain ⟨root', dirs, g, hroot', hdirs, hg, rfl⟩ := discover_eq_ok.1 h
  rw [hroot] at hroot'
  cases hroot'
  obtain ⟨c, hc, rfl⟩ := List.mem_map.1 hp
  obtain ⟨d, hd, rfl⟩ := List.mem_map.1 (List.mem_filter.1 hc).1
  rw [root_of_classify (hg d hd)]
  obtain ⟨es, hr, -⟩ := (mem_candidateDirs_iff hw hdirs).1 hd
  exact ⟨es, hr⟩

/-- A discovery succeeds when every candidate directory can be classified. -/
theorem exists_discover_iff {fs : FileSystem} {rules : Rules} {scanRoot root : Path} {dirs : List Path}
    (hroot : fs.resolve scanRoot = .ok root) (hdirs : candidateDirs fs rules root = .ok dirs) :
    (∃ r, (discover fs rules scanRoot).outcome = .ok r) ↔ ∀ d ∈ dirs, ∃ p, (classify fs rules root d).outcome = .ok p := by
  constructor
  · rintro ⟨r, h⟩ d hd
    obtain ⟨root', dirs', g, hroot', hdirs', hg, -⟩ := discover_eq_ok.1 h
    rw [hroot] at hroot'
    cases hroot'
    rw [hdirs] at hdirs'
    cases hdirs'
    exact ⟨g d, hg d hd⟩
  · intro h
    let g : Path → Candidate × List Diagnostic := fun d =>
      (classify fs rules root d).outcome.toOption.getD (⟨d, false, false, .ignorable⟩, [])
    refine ⟨_, discover_eq_ok.2 ⟨root, dirs, g, hroot, hdirs, fun d hd => ?_, rfl⟩⟩
    obtain ⟨p, hp⟩ := h d hd
    dsimp only [g]
    rw [hp]
    rfl

/-- A directory for which nothing is reported is a project, or has neither a manifest nor a directory by which a project is
known. -/
theorem classify_clean {fs : FileSystem} {rules : Rules} {scanRoot d : Path} {c : Candidate}
    (h : (classify fs rules scanRoot d).outcome = .ok (c, [])) :
    c.root = d ∧
      ((fs.isFile? (d.join (Path.ofString rules.manifestName)) = .ok true ∧ c.classification = .valid) ∨
        (fs.isFile? (d.join (Path.ofString rules.manifestName)) = .ok false ∧
          ∀ name ∈ rules.characteristicDirs, fs.isDir? (d.join (Path.ofString name)) = .ok false)) := by
  obtain ⟨hasManifest, existing, h1, h2, h3, rfl⟩ := classify_eq_ok.1 h
  refine ⟨rfl, ?_⟩
  cases hasManifest with
  | true => exact Or.inl ⟨h1, rfl⟩
  | false =>
    right
    refine ⟨h1, fun name hname => ?_⟩
    obtain ⟨g, hg, he⟩ := Files.namesBelow_eq_ok.1 h2
    have hnil : existing = [] := by
      by_contra hne
      simp [hne] at h3
    have hgn : g name = false := by
      rw [he, List.filter_eq_nil_iff] at hnil
      simpa using hnil name hname
    rw [hg name hname, hgn]

end Discovery

end WorkspaceLint
