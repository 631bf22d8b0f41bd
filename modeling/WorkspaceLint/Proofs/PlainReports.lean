import WorkspaceLint.Report.Plain
import Mathlib.Algebra.GroupWithZero.Nat
import Mathlib.Data.List.Perm.Basic

/-!
# The text report loses and repeats nothing

A text report has a section for each kind of diagnostic that occurs. What the sections of a list are is said without the report
(`IsGrouped`): their kinds follow the order of all kinds, and each holds what is of its kind. Since no kind stands twice in that
order and none is missing from it, the sections put one after another are the list in another order (`IsGrouped.perm`), and the
report is their text (`plain_grouped`).
-/

namespace WorkspaceLint

theorem DiagnosticKind.nodup_all : DiagnosticKind.all.Nodup := by decide

namespace Report

/-! ## Members by their keys -/

/-- The members of a list with each of some keys, for one key after another, are the members of the list when no key stands twice
and the key of no member is missing. -/
theorem flatMap_filter_perm {α κ : Type} [DecidableEq κ] (key : α → κ) {keys : List κ} (hnodup : keys.Nodup) {xs : List α}
    (hcover : ∀ x ∈ xs, key x ∈ keys) : (keys.flatMap fun k => xs.filter (key · = k)).Perm xs := by
  induction keys generalizing xs with
  | nil =>
    have hnil : xs = [] := List.eq_nil_iff_forall_not_mem.2 fun x hx => List.not_mem_nil (hcover x hx)
    simp [hnil]
  | cons k ks ih =>
    obtain ⟨hk, hks⟩ := List.nodup_cons.1 hnodup
    have hrest : ∀ x ∈ xs.filter (fun x => !decide (key x = k)), key x ∈ ks := by
      intro x hx
      obtain ⟨hmem, hne⟩ := List.mem_filter.1 hx
      have hcases := List.mem_cons.1 (hcover x hmem)
      simp only [Bool.not_eq_true', decide_eq_false_iff_not] at hne
      exact hcases.resolve_left hne
    have hsame : ∀ k' ∈ ks, (xs.filter (fun x => !decide (key x = k))).filter (key · = k') = xs.filter (key · = k') := by
      intro k' hk'
      rw [List.filter_filter]
      refine List.filter_congr fun x _ => ?_
      by_cases hx : key x = k'
      · have hne : k' ≠ k := fun h => hk (h ▸ hk')
        simp [hx, hne]
      · simp [hx]
    have hperm := ih hks hrest
    rw [List.flatMap_congr hsame] at hperm
    rw [List.flatMap_cons]
    exact (hperm.append_left _).trans (List.filter_append_perm _ xs)

/-- The diagnostics of a kind, in their order. -/
def ofKind (kind : DiagnosticKind) (ds : List Diagnostic) : List Diagnostic := ds.filter (·.kind = kind)

/-- Diagnostics of one kind after another are all diagnostics. -/
theorem flatMap_ofKind_perm (ds : List Diagnostic) : (DiagnosticKind.all.flatMap (ofKind · ds)).Perm ds :=
  flatMap_filter_perm Diagnostic.kind DiagnosticKind.nodup_all fun d _ => DiagnosticKind.mem_all d.kind

theorem mem_ofKind {kind : DiagnosticKind} {ds : List Diagnostic} {d : Diagnostic} :
    d ∈ ofKind kind ds ↔ d ∈ ds ∧ d.kind = kind := by
  simp [ofKind]

theorem ofKind_ne_nil_iff {kind : DiagnosticKind} {ds : List Diagnostic} :
    ofKind kind ds ≠ [] ↔ ∃ d ∈ ds, d.kind = kind := by
  simp [← List.isEmpty_eq_false_iff, List.isEmpty_eq_false_iff_exists_mem, mem_ofKind]

/-! ## Sections -/

/-- The first line of a report on a number of diagnostics. -/
def headline (number : Nat) : String := "Linter 发现 " ++ toString number ++ " 个问题:"

/-- A section of a report. -/
structure Section where
  /-- The kind that the section is for. -/
  kind : DiagnosticKind
  /-- The diagnostics in it. -/
  members : List Diagnostic

/-- The line above the diagnostics of a section: the title of the kind, and their number. -/
def Section.heading (s : Section) : String := "[" ++ title s.kind ++ "] " ++ toString s.members.length ++ " 个"

/-- The lines of a section: a blank one, the heading, and the text of each diagnostic. -/
def Section.lines (s : Section) : List String := "" :: s.heading :: s.members.map plainDiagnostic

/-- Sections are the ones of a list of diagnostics. -/
structure IsGrouped (ds : List Diagnostic) (sections : List Section) : Prop where
  /-- Their kinds stand in the order of all kinds. -/
  ordered : (sections.map (·.kind)).Sublist DiagnosticKind.all
  /-- There is a section for a kind when the kind occurs. -/
  occurring : ∀ kind, kind ∈ sections.map (·.kind) ↔ ∃ d ∈ ds, d.kind = kind
  /-- A section holds what is of its kind, in the order of the list. -/
  members : ∀ s ∈ sections, s.members = ofKind s.kind ds

namespace IsGrouped

variable {ds : List Diagnostic} {sections : List Section}

/-- Every diagnostic stands in the sections as often as in the list. -/
theorem perm (h : IsGrouped ds sections) : (sections.flatMap (·.members)).Perm ds := by
  have hcover : ∀ d ∈ ds, d.kind ∈ sections.map (·.kind) := fun d hd => (h.occurring d.kind).2 ⟨d, hd, rfl⟩
  have hperm := flatMap_filter_perm Diagnostic.kind (DiagnosticKind.nodup_all.sublist h.ordered) hcover
  rw [List.flatMap_map] at hperm
  rw [List.flatMap_congr h.members]
  exact hperm

/-- The numbers in the headings add up to the number in the first line. -/
theorem sum_length (h : IsGrouped ds sections) : (sections.map (·.members.length)).sum = ds.length := by
  rw [← h.perm.length_eq, List.length_flatMap]

end IsGrouped

/-- The sections of a list of diagnostics. -/
def sectionsOf (ds : List Diagnostic) : List Section :=
  (DiagnosticKind.all.filter (ofKind · ds ≠ [])).map fun kind => ⟨kind, ofKind kind ds⟩

theorem isGrouped_sectionsOf (ds : List Diagnostic) : IsGrouped ds (sectionsOf ds) where
  ordered := by
    unfold sectionsOf
    rw [List.map_map]
    simp [Function.comp_def]
  occurring kind := by
    unfold sectionsOf
    rw [List.map_map, ← ofKind_ne_nil_iff]
    simp [Function.comp_def, DiagnosticKind.mem_all]
  members s hs := by
    obtain ⟨kind, -, rfl⟩ := List.mem_map.1 hs
    rfl

/-- The sections that are written for some kinds are the ones of the kinds that occur. -/
theorem flatMap_sectionLines (ds : List Diagnostic) (kinds : List DiagnosticKind) :
    kinds.flatMap (sectionLines ds) =
      ((kinds.filter (ofKind · ds ≠ [])).map fun kind => (⟨kind, ofKind kind ds⟩ : Section)).flatMap Section.lines := by
  induction kinds with
  | nil => rfl
  | cons kind kinds ih =>
    rw [List.flatMap_cons, ih]
    by_cases hnil : ofKind kind ds = []
    · have hlines : sectionLines ds kind = [] := if_pos hnil
      simp [hlines, hnil]
    · have hlines : sectionLines ds kind = Section.lines ⟨kind, ofKind kind ds⟩ := if_neg hnil
      simp [hlines, hnil]

theorem plain_eq {ds : List Diagnostic} (h : ds ≠ []) :
    plain ds = "\n".intercalate (headline ds.length :: (sectionsOf ds).flatMap Section.lines) := by
  unfold plain sectionsOf
  rw [if_neg h, flatMap_sectionLines]
  rfl

/-- What a report says depends on what is of each kind only. -/
theorem plain_congr {ds ds' : List Diagnostic} (h : ∀ kind, ofKind kind ds' = ofKind kind ds) : plain ds' = plain ds := by
  have hperm : ds'.Perm ds := by
    have hparts := flatMap_ofKind_perm ds'
    simp only [h] at hparts
    exact hparts.symm.trans (flatMap_ofKind_perm ds)
  by_cases hnil : ds = []
  · subst hnil
    rw [hperm.eq_nil]
  · have hnil' : ds' ≠ [] := fun h' => hnil (h' ▸ hperm).nil_eq.symm
    rw [plain_eq hnil, plain_eq hnil', hperm.length_eq]
    simp only [sectionsOf, h]

/-- The report on diagnostics is a line with their number and the text of their sections. Every diagnostic stands in the sections
exactly once and the numbers in the headings add up to the number in the first line; and lists with the same diagnostics of each
kind, in the same order, have the same report, however the kinds are mixed in them. -/
theorem plain_grouped {ds : List Diagnostic} (h : ds ≠ []) :
    (∃ sections, IsGrouped ds sections ∧
      plain ds = "\n".intercalate (headline ds.length :: sections.flatMap Section.lines) ∧
      (sections.flatMap (·.members)).Perm ds ∧ (sections.map (·.members.length)).sum = ds.length) ∧
    ∀ ds', (∀ kind, ofKind kind ds' = ofKind kind ds) → plain ds' = plain ds := by
  have hgrouped := isGrouped_sectionsOf ds
  refine ⟨⟨sectionsOf ds, hgrouped, plain_eq h, hgrouped.perm, hgrouped.sum_length⟩, ?_⟩
  intro ds' hds'
  exact plain_congr hds'

/-- A diagnostic about a name whose message names the file itself. -/
def sharedName : Diagnostic := { kind := .namingMismatch, location := "w", message := "a.fc, A.fc", namesLocation := true }

/-- A diagnostic about a name, seen at a location. -/
def plainName : Diagnostic := { kind := .namingMismatch, location := "w/scripts/Run.ts", message := "run.ts" }

/-- A diagnostic about the structure of a project. -/
def badManifest : Diagnostic := { kind := .structureInvalid, location := "w", message := "package.json" }

/-- Where a diagnostic of another kind stands between two of one kind, or one stands twice, does not show. -/
theorem plain_grouped_mixed :
    (∃ sections, IsGrouped [sharedName, badManifest, plainName, badManifest] sections ∧
      (sections.flatMap (·.members)).Perm [sharedName, badManifest, plainName, badManifest] ∧
      (sections.map (·.members.length)).sum = 4) ∧
    plain [sharedName, badManifest, plainName, badManifest] =
      "\n".intercalate ["Linter 发现 4 个问题:",
        "", "[项目结构] 2 个", "结构无效: w\n    - package.json", "结构无效: w\n    - package.json",
        "", "[文件命名] 2 个", "命名错误: a.fc, A.fc", "命名错误: run.ts (文件: w/scripts/Run.ts)"] ∧
    plain [badManifest, badManifest, sharedName, plainName] = plain [sharedName, badManifest, plainName, badManifest] := by
  obtain ⟨⟨sections, hgrouped, -, hperm, hsum⟩, hsame⟩ :=
    plain_grouped (List.cons_ne_nil sharedName [badManifest, plainName, badManifest])
  refine ⟨⟨sections, hgrouped, hperm, hsum⟩, by decide +kernel, hsame _ ?_⟩
  intro kind
  cases kind <;> rfl

end Report

end WorkspaceLint
