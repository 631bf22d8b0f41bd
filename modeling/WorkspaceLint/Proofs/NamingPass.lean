import WorkspaceLint.Check.Naming
import WorkspaceLint.Proofs.Outcome
import Mathlib.Data.List.Basic

/-!
# The rules for names, file by file

What the three rules for names report of a list of files: for each file at most one diagnostic, from the rule of its category, in the
order of the list (`names_exact`). The only texts that are looked at are those of wrappers with a stem in PascalCase that are no compile
files; two trees in which these read alike give the same diagnostics and the same log.
-/

namespace WorkspaceLint.Check

open Files (FileSystem)

/-! ## Verdicts -/

/-- A file whose text is looked at: a wrapper with a stem in PascalCase that is no compile file. -/
def IsRead (rules : Rules) (f : SourceFile) : Prop :=
  f.category = .wrapper ∧ Naming.isPascalCase (wrapperStem rules f) = true ∧ f.isCompileVariant = false

instance (rules : Rules) (f : SourceFile) : Decidable (IsRead rules f) := inferInstanceAs (Decidable (_ ∧ _))

/-- What is to be said of a file, if anything. -/
structure IsVerdict (fs : FileSystem) (rules : Rules) (f : SourceFile) (verdict : Option Diagnostic) : Prop where
  /-- It is said about the file. -/
  location : ∀ d ∈ verdict, d.location = f.location.text
  /-- Nothing else is said than that the file cannot be read or that its name is not as it should be. -/
  kind : ∀ d ∈ verdict, d.kind = .structureInvalid ∨ d.kind = .namingMismatch
  /-- There is no rule for tests. -/
  test : f.category = .test → verdict = none
  /-- Contracts should have their canonical names as stems. -/
  contract : f.category = .contract →
    verdict.map (·.kind) = if f.stem = f.canonicalName then none else some .namingMismatch
  /-- The stems of scripts should be in lowerCamelCase. -/
  script : f.category = .script →
    verdict.map (·.kind) = if Naming.isLowerCamelCase f.stem then none else some .namingMismatch
  /-- The stems of wrappers should be in PascalCase, whether they can be read or not. -/
  style : f.category = .wrapper → Naming.isPascalCase (wrapperStem rules f) = false →
    verdict.map (·.kind) = some .namingMismatch
  /-- Of compile files nothing more is asked. -/
  compile : f.category = .wrapper → Naming.isPascalCase (wrapperStem rules f) = true → f.isCompileVariant = true → verdict = none
  /-- The other wrappers should have texts. -/
  unreadable : IsRead rules f → (verdict.map (·.kind) = some .structureInvalid ↔ ∃ e, fs.text? f.path = .error e)
  /-- The class that such a text exports, if any, should have the name of the wrapper. -/
  className : IsRead rules f → (verdict.map (·.kind) = some .namingMismatch ↔
    ∃ source name, fs.text? f.path = .ok source ∧ Source.exportedClass? source = some name ∧
      String.ofList name ≠ wrapperStem rules f)

section Verdict

variable {fs : FileSystem} {rules : Rules} {f : SourceFile}

/-- One diagnostic at most is given for a contract. -/
theorem isVerdict_contract (fs : FileSystem) (rules : Rules) (h : f.category = .contract) :
    IsVerdict fs rules f (contractDiagnostic? f) := by
  unfold contractDiagnostic?
  split
  · rename_i hname
    constructor <;> simp [h, hname, IsRead]
  · rename_i hname
    constructor <;> simp [h, hname, IsRead]

/-- One diagnostic at most is given for a script. -/
theorem isVerdict_script (fs : FileSystem) (rules : Rules) (h : f.category = .script) :
    IsVerdict fs rules f (scriptDiagnostic? f) := by
  unfold scriptDiagnostic?
  split
  · rename_i hname
    constructor <;> simp [h, hname, IsRead]
  · rename_i hname
    constructor <;> simp [h, hname, IsRead]

/-- What the text of a wrapper says of its name is one diagnostic at most. -/
theorem exists_wrapperClassDiagnostics (f : SourceFile) (stem : String) (source : List Char) :
    ∃ verdict : Option Diagnostic, wrapperClassDiagnostics f stem source = verdict.toList ∧
      (∀ d ∈ verdict, d.location = f.location.text ∧ d.kind = .namingMismatch) ∧
      (verdict ≠ none ↔ ∃ name, Source.exportedClass? source = some name ∧ String.ofList name ≠ stem) := by
  unfold wrapperClassDiagnostics
  split
  · rename_i name hname
    split
    · rename_i hstem
      exact ⟨none, rfl, by simp, by simp [hname, hstem]⟩
    · rename_i hstem
      exact ⟨some (wrapperClassDiagnostic f stem (String.ofList name)), rfl, by simp [wrapperClassDiagnostic],
        by simp [hname, hstem]⟩
  · rename_i hname
    exact ⟨none, rfl, by simp, by simp [hname]⟩

/-- One diagnostic at most is given for a wrapper. -/
theorem exists_isVerdict_wrapper (fs : FileSystem) (rules : Rules) (h : f.category = .wrapper) :
    ∃ verdict : Option Diagnostic, (wrapperName fs rules f).outcome = .ok verdict.toList ∧ IsVerdict fs rules f verdict := by
  unfold wrapperName
  cases hstyle : Naming.isPascalCase (wrapperStem rules f) with
  | false =>
    refine ⟨some (wrapperStyleDiagnostic f (wrapperStem rules f)), by simp [hstyle], ?_⟩
    constructor <;> simp [h, hstyle, IsRead, wrapperStyleDiagnostic]
  | true =>
    cases hcompile : f.isCompileVariant with
    | true =>
      refine ⟨none, by simp [hstyle], ?_⟩
      constructor <;> simp [h, hstyle, hcompile, IsRead]
    | false =>
      cases htext : fs.text? f.path with
      | error e =>
        refine ⟨some (wrapperUnreadableDiagnostic f e.message), by simp [hstyle, Except.bind], ?_⟩
        constructor <;> simp [h, hstyle, hcompile, htext, IsRead, wrapperUnreadableDiagnostic]
      | ok source =>
        obtain ⟨verdict, hverdict, hall, hiff⟩ := exists_wrapperClassDiagnostics f (wrapperStem rules f) source
        have hkind : ∀ kind, verdict.map (·.kind) = some kind ↔ verdict ≠ none ∧ kind = .namingMismatch := by
          intro kind
          cases verdict with
          | none => simp
          | some d => simp [(hall d rfl).2, eq_comm]
        refine ⟨verdict, by simp [hstyle, hverdict], ?_⟩
        constructor
        case location => exact fun d hd => (hall d hd).1
        case kind => exact fun d hd => Or.inr (hall d hd).2
        case unreadable => simp [hkind, htext]
        case className => simp [hkind, htext, hiff]
        all_goals simp [h, hstyle, hcompile]

/-- What is given for a file by the rule of its category is what is to be said of it. -/
theorem exists_isVerdict (fs : FileSystem) (rules : Rules) (f : SourceFile) : ∃ verdict : Option Diagnostic,
    IsVerdict fs rules f verdict ∧ (f.category = .contract → contractDiagnostic? f = verdict) ∧
      (f.category = .wrapper → (wrapperName fs rules f).outcome = .ok verdict.toList) ∧
      (f.category = .script → scriptDiagnostic? f = verdict) := by
  cases h : f.category with
  | contract => exact ⟨_, isVerdict_contract fs rules h, fun _ => rfl, nofun, nofun⟩
  | script => exact ⟨_, isVerdict_script fs rules h, nofun, nofun, fun _ => rfl⟩
  | wrapper =>
    obtain ⟨verdict, houtcome, hverdict⟩ := exists_isVerdict_wrapper fs rules h
    exact ⟨verdict, hverdict, nofun, fun _ => houtcome, nofun⟩
  | test =>
    refine ⟨none, ?_, nofun, nofun, nofun⟩
    constructor <;> simp [h, IsRead]

/-- What is given for a wrapper hangs on its text only when the text is looked at. -/
theorem wrapperName_congr {fs' : FileSystem} (hwrapper : f.category = .wrapper)
    (h : IsRead rules f → fs'.text? f.path = fs.text? f.path) : wrapperName fs' rules f = wrapperName fs rules f := by
  unfold wrapperName
  dsimp only
  cases hstyle : Naming.isPascalCase (wrapperStem rules f) with
  | false => rfl
  | true =>
    cases hcompile : f.isCompileVariant with
    | true => rfl
    | false => rw [h ⟨hwrapper, hstyle, hcompile⟩]

end Verdict

/-! ## The pass -/

/-- A list of files, by their categories. -/
theorem perm_filter_category (files : List SourceFile) : files.Perm
    (files.filter (·.category = .contract) ++ files.filter (·.category = .wrapper) ++ files.filter (·.category = .script) ++
      files.filter (·.category = .test)) := by
  induction files with
  | nil => exact List.Perm.refl _
  | cons f rest ih =>
    refine (ih.cons f).trans ?_
    cases h : f.category with
    | contract => simp [h]
    | wrapper => simpa [h] using List.perm_middle.symm
    | script => simpa [h] using List.perm_middle.symm.trans (List.perm_middle.symm.append_left _)
    | test =>
      simpa [h] using List.perm_middle.symm.trans ((List.perm_middle.symm.trans (List.perm_middle.symm.append_left _)).append_left _)

/-- The rules for names succeed, and what they report together is what is to be said of each file of the list: contracts, wrappers and
scripts each by a rule of their own and in the order of the list, and nothing of tests. It is the same, and the same is logged, for a
tree in which the wrappers that are looked at have the same texts. -/
theorem names_exact (fs : FileSystem) (rules : Rules) (files : List SourceFile) :
    (∃ (verdict : SourceFile → Option Diagnostic) (ofWrappers : List Diagnostic), (∀ f, IsVerdict fs rules f (verdict f)) ∧
      (wrapperNames fs rules files).outcome = .ok ofWrappers ∧
      contractNames files = (files.filter (·.category = .contract)).filterMap verdict ∧
      ofWrappers = (files.filter (·.category = .wrapper)).filterMap verdict ∧
      scriptNames files = (files.filter (·.category = .script)).filterMap verdict ∧
      (files.filterMap verdict).Perm (contractNames files ++ ofWrappers ++ scriptNames files)) ∧
    ∀ fs' : FileSystem, (∀ f ∈ files, IsRead rules f → fs'.text? f.path = fs.text? f.path) →
      wrapperNames fs' rules files = wrapperNames fs rules files := by
  constructor
  · choose verdict hverdict hcontract hwrapper hscript using exists_isVerdict fs rules
    have hofWrappers : (wrapperNames fs rules files).outcome =
        .ok ((files.filter (·.category = .wrapper)).filterMap verdict) := by
      rw [List.filterMap_eq_flatMap_toList]
      refine Logged.collect_eq_ok.2 ⟨_, fun f hf => ?_, rfl⟩
      exact hwrapper f (of_decide_eq_true (List.mem_filter.1 hf).2)
    have hofContracts : contractNames files = (files.filter (·.category = .contract)).filterMap verdict :=
      List.filterMap_congr fun f hf => hcontract f (of_decide_eq_true (List.mem_filter.1 hf).2)
    have hofScripts : scriptNames files = (files.filter (·.category = .script)).filterMap verdict :=
      List.filterMap_congr fun f hf => hscript f (of_decide_eq_true (List.mem_filter.1 hf).2)
    have hofTests : (files.filter (·.category = .test)).filterMap verdict = [] :=
      List.filterMap_eq_nil_iff.2 fun f hf => (hverdict f).test (of_decide_eq_true (List.mem_filter.1 hf).2)
    refine ⟨verdict, _, hverdict, hofWrappers, hofContracts, rfl, hofScripts, ?_⟩
    have hperm := (perm_filter_category files).filterMap verdict
    rwa [List.filterMap_append, List.filterMap_append, List.filterMap_append, hofTests, List.append_nil, ← hofContracts,
      ← hofScripts] at hperm
  · intro fs' h
    refine Logged.collect_congr fun f hf => ?_
    obtain ⟨hmem, hwrapper⟩ := List.mem_filter.1 hf
    exact wrapperName_congr (of_decide_eq_true hwrapper) (h f hmem)

end WorkspaceLint.Check

namespace WorkspaceLint.NamingPass

open Files (FileSystem)

/-- Three wrappers, of which the last one is empty. -/
def tree (first second : List UInt8) : FileSystem where
  entries := [("w", .dir [("wrappers", .dir [("counter.ts", .file first), ("Counter.compile.ts", .file second),
    ("Counter.ts", .file [])])])]

/-- A wrapper. -/
def wrapper (name : String) (isCompileVariant : Bool) : SourceFile where
  path := .absolute ["w", "wrappers", name]
  location := .ofParts ["wrappers", name]
  category := .wrapper
  isCompileVariant := isCompileVariant

/-- The three wrappers. -/
def wrappers : List SourceFile := [wrapper "counter.ts" false, wrapper "Counter.compile.ts" true, wrapper "Counter.ts" false]

end WorkspaceLint.NamingPass

namespace WorkspaceLint.Check

/-- A wrapper with a small first letter and a compile file may as well hold octets that are no text. -/
theorem names_exact_unread :
    ((NamingPass.tree [] []).text? (NamingPass.wrapper "counter.ts" false).path ≠
        (NamingPass.tree [0xFF] [0xFF]).text? (NamingPass.wrapper "counter.ts" false).path ∧
      (NamingPass.tree [] []).text? (NamingPass.wrapper "Counter.compile.ts" true).path ≠
        (NamingPass.tree [0xFF] [0xFF]).text? (NamingPass.wrapper "Counter.compile.ts" true).path) ∧
      wrapperNames (NamingPass.tree [0xFF] [0xFF]) {} NamingPass.wrappers =
        wrapperNames (NamingPass.tree [] []) {} NamingPass.wrappers := by
  refine ⟨by decide +kernel, (names_exact (NamingPass.tree [] []) {} NamingPass.wrappers).2 _ ?_⟩
  decide +kernel

end WorkspaceLint.Check
