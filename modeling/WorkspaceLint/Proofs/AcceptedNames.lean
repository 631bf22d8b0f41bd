import WorkspaceLint.Proofs.Checks
import WorkspaceLint.Proofs.FileKinds

/-!
# Accepted names

What the names are like that the rules for wrappers and scripts accept. The tests for PascalCase and lowerCamelCase pass words of
letters and digits, and words with one line feed behind them as well (`isPascalCase_iff`, `isLowerCamelCase_iff`). So a wrapper or a
script of a scan about which nothing is reported is named by such a word, unless a line feed stands before the ending of its name
(`scan_accepted`, `scan_accepts_line_feed`).
-/

namespace WorkspaceLint

open Files (FileSystem)

namespace Naming

/-! ## Words -/

/-- A text is a word: letters and digits only, of which the first is of a class. -/
structure IsWord (first : Char → Bool) (s : List Char) : Prop where
  /-- There is a first character, and it is of the class. -/
  start : ∃ c, s.head? = some c ∧ first c = true
  /-- There are letters and digits only. -/
  alphanumeric : ∀ c ∈ s, c.isAlphanum = true

/-- A text is a word, or a word with a line feed behind it. -/
def IsWordLine (first : Char → Bool) (s : List Char) : Prop := ∃ w, IsWord first w ∧ (s = w ∨ s = w ++ ['\n'])

section IsWord

variable {first : Char → Bool} {s : List Char}

/-- The empty text is no word. -/
theorem not_isWord_nil : ¬IsWord first [] := by
  rintro ⟨⟨c, hc, -⟩, -⟩
  nomatch hc

/-- A word starts with a character of its class, also before a line feed. -/
theorem IsWordLine.exists_head (h : IsWordLine first s) : ∃ c rest, s = c :: rest ∧ first c = true := by
  obtain ⟨w, ⟨⟨c, hc, hfirst⟩, -⟩, hs⟩ := h
  obtain ⟨rest, rfl⟩ : ∃ rest, w = c :: rest := ⟨_, List.eq_cons_of_mem_head? hc⟩
  rcases hs with rfl | rfl
  · exact ⟨c, rest, rfl, hfirst⟩
  · exact ⟨c, rest ++ ['\n'], rfl, hfirst⟩

theorem not_isWordLine_nil : ¬IsWordLine first [] := by
  intro h
  obtain ⟨c, rest, hs, -⟩ := h.exists_head
  nomatch hs

theorem isWord_cons (hfirst : ∀ c, first c = true → c.isAlphanum = true) {c : Char} {rest : List Char} :
    IsWord first (c :: rest) ↔ first c = true ∧ ∀ d ∈ rest, isAlphanumeric d = true := by
  constructor
  · rintro ⟨⟨d, hd, hc⟩, hall⟩
    cases hd
    refine ⟨hc, fun d hd => ?_⟩
    rw [isAlphanumeric_eq_isAlphanum]
    exact hall d (List.mem_cons_of_mem c hd)
  · rintro ⟨hc, hall⟩
    refine ⟨⟨c, rfl, hc⟩, List.forall_mem_cons.2 ⟨hfirst c hc, fun d hd => ?_⟩⟩
    rw [← isAlphanumeric_eq_isAlphanum]
    exact hall d hd

/-- The line feed is in no word. -/
theorem IsWord.line_feed_not_mem (h : IsWord first s) : '\n' ∉ s := by
  intro hmem
  have hno : ('\n').isAlphanum = false := by decide
  rw [h.alphanumeric _ hmem] at hno
  nomatch hno

/-- The test for a word passes words, and words with a line feed behind them. -/
theorem isWordAfter_iff (hfirst : ∀ c, first c = true → c.isAlphanum = true) :
    isWordAfter first s = true ↔ IsWordLine first s := by
  cases s with
  | nil => exact iff_of_false nofun not_isWordLine_nil
  | cons c rest =>
    simp only [isWordAfter, Bool.and_eq_true, Bool.or_eq_true, beq_iff_eq, List.all_eq_true]
    constructor
    · rintro ⟨hc, hall | ⟨hlast, hall⟩⟩
      · exact ⟨c :: rest, (isWord_cons hfirst).2 ⟨hc, hall⟩, Or.inl rfl⟩
      · refine ⟨c :: rest.dropLast, (isWord_cons hfirst).2 ⟨hc, hall⟩, Or.inr ?_⟩
        rw [List.cons_append, List.dropLast_append_getLast? _ hlast]
    · rintro ⟨w, hw, rfl | h⟩
      · obtain ⟨hc, hall⟩ := (isWord_cons hfirst).1 hw
        exact ⟨hc, Or.inl hall⟩
      · cases w with
        | nil => exact absurd hw not_isWord_nil
        | cons d w =>
          rw [List.cons_append, List.cons.injEq] at h
          obtain ⟨rfl, rfl⟩ := h
          obtain ⟨hc, hall⟩ := (isWord_cons hfirst).1 hw
          exact ⟨hc, Or.inr ⟨List.getLast?_concat, by rwa [List.dropLast_concat]⟩⟩

/-- A word with a line feed behind it is none. -/
theorem IsWordLine.isWord_iff (h : IsWordLine first s) : IsWord first s ↔ s.getLast? ≠ some '\n' := by
  obtain ⟨w, hw, rfl | rfl⟩ := h
  · exact iff_of_true hw fun hlast => hw.line_feed_not_mem (List.mem_of_getLast? hlast)
  · exact iff_of_false (fun h => h.line_feed_not_mem (by simp)) (by simp)

end IsWord

/-- A name is taken for PascalCase when it is a word that starts with a capital, a line feed at its end apart. -/
theorem isPascalCase_iff {name : String} : isPascalCase name = true ↔ IsWordLine Char.isUpper name.toList := by
  rw [isPascalCase, funext isCapital_eq_isUpper]
  refine isWordAfter_iff fun c hc => ?_
  rw [← isAlphanumeric_eq_isAlphanum, isAlphanumeric, isCapital_eq_isUpper, hc, Bool.true_or, Bool.true_or]

/-- A name is taken for lowerCamelCase when it is a word that starts with a small letter, a line feed at its end apart. -/
theorem isLowerCamelCase_iff {name : String} : isLowerCamelCase name = true ↔ IsWordLine Char.isLower name.toList := by
  rw [isLowerCamelCase, funext isSmall_eq_isLower]
  refine isWordAfter_iff fun c hc => ?_
  rw [← isAlphanumeric_eq_isAlphanum, isAlphanumeric, isSmall_eq_isLower, hc, Bool.or_true, Bool.true_or]

end Naming

namespace Check

variable {fs : FileSystem} {rules : Rules} {files : List SourceFile} {f : SourceFile}

/-! ## Rules for wrappers and scripts -/

/-- The rules for wrappers and scripts, applied to some files, report nothing about a file. -/
def IsUnreported (fs : FileSystem) (rules : Rules) (files : List SourceFile) (f : SourceFile) : Prop :=
  ∃ ofWrappers, (wrapperNames fs rules files).outcome = .ok ofWrappers ∧
    ∀ d ∈ ofWrappers ++ scriptNames files, d.location ≠ f.location.text

/-- A script is not reported when its stem is in lowerCamelCase. -/
theorem scriptDiagnostic?_eq_none_iff : scriptDiagnostic? f = none ↔ Naming.isLowerCamelCase f.stem = true := by
  unfold scriptDiagnostic?
  split <;> simp [*]

theorem location_of_scriptDiagnostic? {d : Diagnostic} (h : scriptDiagnostic? f = some d) : d.location = f.location.text := by
  unfold scriptDiagnostic? at h
  split at h
  · nomatch h
  · cases h
    rfl

/-- A wrapper is not reported when its stem is in PascalCase and, if it is no compile file, its text can be read and exports no class
of another name. -/
theorem wrapperName_eq_nil_iff : (wrapperName fs rules f).outcome = .ok [] ↔
    Naming.isPascalCase (wrapperStem rules f) = true ∧
      (f.isCompileVariant = false → ∃ source, fs.text? f.path = .ok source ∧
        ∀ c, Source.exportedClass? source = some c → String.ofList c = wrapperStem rules f) := by
  refine ⟨wrapperName_clean, ?_⟩
  rintro ⟨hstyle, hclass⟩
  rw [wrapperName, hstyle]
  cases hcompile : f.isCompileVariant with
  | true => rfl
  | false =>
    obtain ⟨source, htext, hclass⟩ := hclass hcompile
    simp only [htext, Bool.not_true, Bool.false_eq_true, if_false, Logged.outcome_ok, Except.ok.injEq, wrapperClassDiagnostics]
    split
    · rename_i c hc
      rw [if_pos (hclass c hc)]
    · rfl

/-- A wrapper or a script whose location no other file has is not reported when the rule of its category gives nothing for it. -/
theorem isUnreported_iff (fs : FileSystem) (rules : Rules) (hf : f ∈ files)
    (hlocation : ∀ g ∈ files, g.location.text = f.location.text → g = f) :
    IsUnreported fs rules files f ↔ (f.category = .wrapper → (wrapperName fs rules f).outcome = .ok []) ∧
      (f.category = .script → scriptDiagnostic? f = none) := by
  choose ofWrapper hofWrapper hofLocation using exists_wrapperName fs rules
  have hrun : (wrapperNames fs rules files).outcome =
      .ok ((files.filter (·.category = .wrapper)).flatMap ofWrapper) :=
    Logged.collect_eq_ok.2 ⟨ofWrapper, fun g _ => hofWrapper g, rfl⟩
  simp only [IsUnreported, hrun, Except.ok.injEq, exists_eq_left', List.mem_append, hofWrapper]
  constructor
  · intro h
    refine ⟨fun hc => List.eq_nil_iff_forall_not_mem.2 fun d hd => ?_, fun hc => Option.eq_none_iff_forall_ne_some.2 fun d hd => ?_⟩
    · refine h d (Or.inl (List.mem_flatMap.2 ⟨f, List.mem_filter.2 ⟨hf, decide_eq_true hc⟩, hd⟩)) (hofLocation f d hd)
    · refine h d (Or.inr (List.mem_filterMap.2 ⟨f, List.mem_filter.2 ⟨hf, decide_eq_true hc⟩, hd⟩)) ?_
      exact location_of_scriptDiagnostic? hd
  · rintro ⟨hwrapper, hscript⟩ d hd heq
    rcases hd with hd | hd
    · obtain ⟨g, hg, hd⟩ := List.mem_flatMap.1 hd
      obtain ⟨hg, hc⟩ := List.mem_filter.1 hg
      obtain rfl := hlocation g hg ((hofLocation g d hd).symm.trans heq)
      rw [hwrapper (of_decide_eq_true hc)] at hd
      nomatch hd
    · obtain ⟨g, hg, hd⟩ := List.mem_filterMap.1 hd
      obtain ⟨hg, hc⟩ := List.mem_filter.1 hg
      obtain rfl := hlocation g hg ((location_of_scriptDiagnostic? hd).symm.trans heq)
      rw [hscript (of_decide_eq_true hc)] at hd
      nomatch hd

end Check

/-! ## Files of a scan -/

/-- A name that ends in something is put together with it. -/
theorem exists_append_of_endsIn {name ending : String} (h : endsIn name ending = true) : ∃ stem, name = stem ++ ending := by
  rw [endsIn, List.isSuffixOf_iff_suffix] at h
  obtain ⟨before, hname⟩ := h
  exact ⟨String.ofList before, String.toList_inj.1 (by rw [String.toList_append, String.toList_ofList, hname])⟩

namespace SourceFile

variable {fs : FileSystem} {rules : Rules} {project : Path} {dirs : List String} {files : List SourceFile} {f : SourceFile}

/-- The category of a file of a scan is decided by its name and the last name of a target. -/
theorem exists_categoryOf_of_mem_scan (h : (scan fs rules project dirs).outcome = .ok files) (hf : f ∈ files) :
    ∃ targetName, categoryOf? rules f.name f.suffix targetName = some (f.category, f.isCompileVariant) := by
  obtain ⟨root, found, -, hfound, rfl⟩ := scan_eq_ok.1 h
  rw [mem_sort_eraseDups, mem_collect_ofTarget_iff hfound] at hf
  exact exists_categoryOf_of_mem_inProject hf.exists_at?.1

/-- The compile files among the wrappers of a scan are what is named as compile files are. -/
theorem isCompileVariant_of_mem_scan (h : (scan fs rules project dirs).outcome = .ok files) (hf : f ∈ files)
    (hc : f.category = .wrapper) : f.isCompileVariant = endsIn f.name rules.compileSuffix := by
  obtain ⟨targetName, hcategory⟩ := exists_categoryOf_of_mem_scan h hf
  rcases categoryOf?_cases hcategory with ⟨hno, -⟩ | ⟨hno, -⟩ | ⟨-, -, -, -, hv⟩ | ⟨hno, -⟩
  · rw [hc] at hno; nomatch hno
  · rw [hc] at hno; nomatch hno
  · exact hv
  · rw [hc] at hno; nomatch hno

/-- The stem of a script is in lowerCamelCase when what stands before the ending of its name is a word, a line feed behind it apart.
A name that is nothing but its ending has no suffix, and its stem starts with the dot. -/
theorem isLowerCamelCase_stem_iff {stem : String} (h : f.name = stem ++ ".ts") :
    Naming.isLowerCamelCase f.stem = true ↔ Naming.IsWordLine Char.isLower stem.toList := by
  have hchars : f.path.name.toList = stem.toList ++ '.' :: ['t', 's'] := by rw [← name, h, String.toList_append]; rfl
  rw [Naming.isLowerCamelCase_iff, SourceFile.stem, Path.stem, String.toList_ofList, hchars]
  by_cases hempty : stem.toList = []
  · have hstem : (splitSuffix ([] ++ '.' :: ['t', 's'])).1 = ['.', 't', 's'] := by decide
    rw [hempty, hstem]
    refine iff_of_false (fun h => ?_) Naming.not_isWordLine_nil
    obtain ⟨c, rest, hs, hc⟩ := h.exists_head
    rw [← (List.cons.inj hs).1] at hc
    exact absurd hc (by decide)
  · rw [splitSuffix_of_dot hempty (by simp) (by decide)]

/-- About a wrapper or a script of a scan under the default rules, whose name ends as those of sources do, nothing is reported exactly
when what stands before that ending is a word, a line feed behind it apart, and the text of a wrapper that is no compile file can be
read and exports no class of another name. Then it is a word, with a capital first for wrappers and a small letter for scripts,
exactly when it does not end in a line feed. -/
theorem scan_accepted (hw : fs.WellFormed) (h : (scan fs {} project dirs).outcome = .ok files) (hf : f ∈ files)
    (hsource : endsIn f.name ".ts" = true) :
    (f.category = .wrapper → ∃ stem, f.name = stem ++ (if f.isCompileVariant then ".compile.ts" else ".ts") ∧
      (Check.IsUnreported fs {} files f ↔ Naming.IsWordLine Char.isUpper stem.toList ∧
        (f.isCompileVariant = false → ∃ source, fs.text? f.path = .ok source ∧
          ∀ c, Source.exportedClass? source = some c → String.ofList c = stem)) ∧
      (Check.IsUnreported fs {} files f →
        (Naming.IsWord Char.isUpper stem.toList ↔ stem.toList.getLast? ≠ some '\n'))) ∧
    (f.category = .script → ∃ stem, f.name = stem ++ ".ts" ∧
      (Check.IsUnreported fs {} files f ↔ Naming.IsWordLine Char.isLower stem.toList) ∧
      (Check.IsUnreported fs {} files f →
        (Naming.IsWord Char.isLower stem.toList ↔ stem.toList.getLast? ≠ some '\n'))) := by
  have hunreported := Check.isUnreported_iff fs {} hf fun g hg => eq_of_location_of_mem_scan hw h hg hf
  constructor
  · intro hc
    have hends : endsIn f.name (if f.isCompileVariant then ".compile.ts" else ".ts") = true := by
      cases hv : f.isCompileVariant with
      | true => exact (isCompileVariant_of_mem_scan h hf hc).symm.trans hv
      | false => exact hsource
    obtain ⟨stem, hname⟩ := exists_append_of_endsIn hends
    have hstem : Check.wrapperStem {} f = stem := by
      rw [Check.wrapperStem, hname]
      refine withoutEnding_append stem ?_
      split <;> decide
    rw [Check.wrapperName_eq_nil_iff, hstem, Naming.isPascalCase_iff] at hunreported
    have hiff : Check.IsUnreported fs {} files f ↔ _ := hunreported.trans ⟨fun h => h.1 hc, fun h => ⟨fun _ => h, by simp [hc]⟩⟩
    exact ⟨stem, hname, hiff, fun h => (hiff.1 h).1.isWord_iff⟩
  · intro hc
    obtain ⟨stem, hname⟩ := exists_append_of_endsIn hsource
    rw [Check.scriptDiagnostic?_eq_none_iff, isLowerCamelCase_stem_iff hname] at hunreported
    have hiff : Check.IsUnreported fs {} files f ↔ _ := hunreported.trans ⟨fun h => h.2 hc, fun h => ⟨by simp [hc], fun _ => h⟩⟩
    exact ⟨stem, hname, hiff, fun h => (hiff.1 h).isWord_iff⟩

end SourceFile

/-! ## Line feeds -/

namespace AcceptedNames

/-- Two wrappers and two scripts, of which one each has a line feed before the ending of its name. -/
def tree : FileSystem where
  entries := [("w", .dir [("scripts", .dir [("deploy\n.ts", .file []), ("deploy.ts", .file [])]),
    ("wrappers", .dir [("Counter\n.ts", .file []), ("Counter.ts", .file [])])])]

/-- What the scan makes of a script. -/
def script (name : String) : SourceFile where
  path := .absolute ["w", "scripts", name]
  location := .ofParts ["scripts", name]
  category := .script
  isCompileVariant := false

/-- What the scan makes of a wrapper. -/
def wrapper (name : String) : SourceFile where
  path := .absolute ["w", "wrappers", name]
  location := .ofParts ["wrappers", name]
  category := .wrapper
  isCompileVariant := false

/-- What the scan finds. -/
def found : List SourceFile := [script "deploy\n.ts", script "deploy.ts", wrapper "Counter\n.ts", wrapper "Counter.ts"]

theorem scan_tree : (SourceFile.scan tree {} (.absolute ["w"]) ["scripts", "wrappers"]).outcome = .ok found := by
  have honce : found.eraseDups = found := by decide +kernel
  refine SourceFile.scan_eq_ok.2 ⟨.absolute ["w"], found, by decide +kernel, by decide +kernel, ?_⟩
  rw [honce, SourceFile.sort, List.mergeSort_of_pairwise]
  decide +kernel

/-- Nothing is reported. -/
theorem isUnreported (f : SourceFile) : Check.IsUnreported tree {} found f := by
  have hscripts : Check.scriptNames found = [] := by decide +kernel
  refine ⟨[], by decide +kernel, fun d hd => ?_⟩
  rw [hscripts] at hd
  nomatch hd

end AcceptedNames

namespace SourceFile

/-- The wrapper and the script without a line feed are named by words. -/
theorem scan_accepted_words :
    (scan AcceptedNames.tree {} (.absolute ["w"]) ["scripts", "wrappers"]).outcome = .ok AcceptedNames.found ∧
      (∃ stem, "Counter.ts" = stem ++ ".ts" ∧ Naming.IsWord Char.isUpper stem.toList) ∧
      ∃ stem, "deploy.ts" = stem ++ ".ts" ∧ Naming.IsWord Char.isLower stem.toList := by
  have hw : AcceptedNames.tree.WellFormed := by decide +kernel
  have hwrapper : AcceptedNames.wrapper "Counter.ts" ∈ AcceptedNames.found := by simp [AcceptedNames.found]
  have hscript : AcceptedNames.script "deploy.ts" ∈ AcceptedNames.found := by simp [AcceptedNames.found]
  obtain ⟨stem, hstem, -, hword⟩ := (scan_accepted hw AcceptedNames.scan_tree hwrapper (by decide +kernel)).1 rfl
  obtain ⟨stem', hstem', -, hword'⟩ := (scan_accepted hw AcceptedNames.scan_tree hscript (by decide +kernel)).2 rfl
  have hname : (AcceptedNames.wrapper "Counter.ts").name = "Counter" ++ ".ts" := by decide +kernel
  have hname' : (AcceptedNames.script "deploy.ts").name = "deploy" ++ ".ts" := by decide +kernel
  obtain rfl : stem = "Counter" := (String.append_left_inj _).1 (hstem.symm.trans hname)
  obtain rfl : stem' = "deploy" := (String.append_left_inj _).1 (hstem'.symm.trans hname')
  refine ⟨AcceptedNames.scan_tree, ⟨"Counter", rfl, ?_⟩, "deploy", rfl, ?_⟩
  · exact (hword (AcceptedNames.isUnreported _)).2 (by decide)
  · exact (hword' (AcceptedNames.isUnreported _)).2 (by decide)

/-- A wrapper and a script with a line feed before the ending of their names are not reported. -/
theorem scan_accepts_line_feed : AcceptedNames.tree.WellFormed ∧
    (scan AcceptedNames.tree {} (.absolute ["w"]) ["scripts", "wrappers"]).outcome = .ok AcceptedNames.found ∧
      (AcceptedNames.wrapper "Counter\n.ts" ∈ AcceptedNames.found ∧
        (AcceptedNames.wrapper "Counter\n.ts").name = "Counter\n" ++ ".ts" ∧
        Check.IsUnreported AcceptedNames.tree {} AcceptedNames.found (AcceptedNames.wrapper "Counter\n.ts") ∧
        ¬Naming.IsWord Char.isUpper "Counter\n".toList) ∧
      (AcceptedNames.script "deploy\n.ts" ∈ AcceptedNames.found ∧
        (AcceptedNames.script "deploy\n.ts").name = "deploy\n" ++ ".ts" ∧
        Check.IsUnreported AcceptedNames.tree {} AcceptedNames.found (AcceptedNames.script "deploy\n.ts") ∧
        ¬Naming.IsWord Char.isLower "deploy\n".toList) := by
  refine ⟨by decide +kernel, AcceptedNames.scan_tree, ⟨?_, by decide +kernel, AcceptedNames.isUnreported _, ?_⟩,
    ?_, by decide +kernel, AcceptedNames.isUnreported _, ?_⟩
  · simp [AcceptedNames.found]
  · exact fun h => h.line_feed_not_mem (by decide)
  · simp [AcceptedNames.found]
  · exact fun h => h.line_feed_not_mem (by decide)

end SourceFile

end WorkspaceLint
