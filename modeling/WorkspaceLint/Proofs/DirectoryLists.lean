import WorkspaceLint.Proofs.Path
import WorkspaceLint.Proofs.TextSearch
import WorkspaceLint.Settings.Load
import Mathlib.Data.List.DropRight

/-!
# Directories in a list and in one text

The directories whose names are checked are set as one text with commas, or as a list in a configuration file, which is joined to
such a text first. Nothing is gained or lost on the way: a comma between two texts ends the names of the first and starts those of
the second, wherever else commas stand (`splitNames_append_comma`), and a name that was read is read as itself
(`parseDirList_name`). So a list is read item by item (`targetDirs_forms`).
-/

namespace WorkspaceLint

/-! ## Texts between commas -/

/-- What stands on the two sides of a separator is split on its own. -/
theorem splitOn_append_cons (c : Char) (s t : List Char) : (s ++ c :: t).splitOn c = s.splitOn c ++ t.splitOn c := by
  induction s with
  | nil => simp [List.splitOn, List.splitOnP_cons_eq_if_modifyHead]
  | cons x s ih =>
    unfold List.splitOn at ih ⊢
    rw [List.cons_append, List.splitOnP_cons_eq_if_modifyHead, List.splitOnP_cons_eq_if_modifyHead, ih]
    by_cases hx : x = c
    · simp [hx]
    · obtain ⟨first, more, hs⟩ := List.exists_cons_of_ne_nil (List.splitOnP_ne_nil (· == c) s)
      simp [hx, hs]

namespace Text

/-! ## Stripped texts -/

/-- No blank stands at the ends of a text. -/
structure IsStripped (s : List Char) : Prop where
  /-- The first character is not blank. -/
  head : ∀ c ∈ s.head?, isBlank c = false
  /-- The last character is not blank. -/
  last : ∀ c ∈ s.getLast?, isBlank c = false

theorem isStripped_strip (s : List Char) : IsStripped (strip s) where
  head c hc := by
    have hprefix : strip s <+: s.dropWhile isBlank := List.rdropWhile_prefix isBlank _
    obtain ⟨after, hafter⟩ := hprefix
    have hhead : (s.dropWhile isBlank).head? = some c := by
      rw [← hafter, List.head?_append, Option.mem_def.1 hc]
      rfl
    exact of_mem_head?_dropWhile c hhead
  last c hc := by
    unfold strip stripWhere at hc
    rw [List.getLast?_reverse] at hc
    exact of_mem_head?_dropWhile c hc

theorem IsStripped.strip_eq {s : List Char} (h : IsStripped s) : strip s = s := by
  have hnone : strip ([] ++ s ++ []) = s := strip_append (by simp) (by simp) h.head h.last
  simpa using hnone

theorem strip_subset (s : List Char) : strip s ⊆ s :=
  List.Subset.trans (List.rdropWhile_prefix isBlank _).subset (List.dropWhile_suffix isBlank).subset

end Text

/-! ## Names of directories -/

/-- A name that a list of directories can hold. -/
structure IsDirName (name : String) : Prop where
  /-- It is not empty. -/
  ne_empty : name ≠ ""
  /-- It holds no comma. -/
  no_comma : ',' ∉ name.toList
  /-- No blank stands at its ends. -/
  stripped : Text.IsStripped name.toList

/-- What stands before a comma and what stands after it are read on their own. -/
theorem splitNames_append_comma (s t : List Char) : splitNames (s ++ ',' :: t) = splitNames s ++ splitNames t := by
  unfold splitNames
  rw [splitOn_append_cons, List.map_append, List.filter_append]

/-- Texts with commas between them are read one after another. -/
theorem splitNames_intercalate (texts : List (List Char)) :
    splitNames ([','].intercalate texts) = texts.flatMap splitNames := by
  induction texts with
  | nil => decide
  | cons s texts ih =>
    cases texts with
    | nil => simp
    | cons t texts =>
      rw [List.intercalate_cons_cons, List.append_assoc, List.singleton_append, splitNames_append_comma, ih]
      rfl

theorem parseDirList_intercalate (texts : List String) :
    parseDirList (",".intercalate texts) = texts.flatMap parseDirList := by
  have hcomma : ",".toList = [','] := rfl
  unfold parseDirList
  rw [String.toList_intercalate, hcomma, splitNames_intercalate, List.flatMap_map, List.map_flatMap]

/-- What is read from a text are names. -/
theorem isDirName_of_mem_parseDirList {raw name : String} (h : name ∈ parseDirList raw) : IsDirName name := by
  unfold parseDirList splitNames at h
  obtain ⟨s, hs, rfl⟩ := List.mem_map.1 h
  obtain ⟨hpart, hne⟩ := List.mem_filter.1 hs
  obtain ⟨part, hmem, rfl⟩ := List.mem_map.1 hpart
  have hcomma : ',' ∉ part := Path.not_mem_of_mem_splitOn ',' raw.toList part hmem
  refine ⟨?_, ?_, ?_⟩
  · simpa using hne
  · rw [String.toList_ofList]
    exact fun hc => hcomma (Text.strip_subset part hc)
  · rw [String.toList_ofList]
    exact Text.isStripped_strip part

/-- A name is read as itself. -/
theorem parseDirList_name {name : String} (h : IsDirName name) : parseDirList name = [name] := by
  unfold parseDirList splitNames
  rw [List.splitOn_eq_singleton h.no_comma, List.map_singleton, h.stripped.strip_eq]
  have hne : name.toList ≠ [] := by simpa using h.ne_empty
  simp [hne]

/-- Names with commas between them are read as they are. -/
theorem parseDirList_names {names : List String} (h : ∀ name ∈ names, IsDirName name) :
    parseDirList (",".intercalate names) = names := by
  rw [parseDirList_intercalate, List.flatMap_congr fun name hname => parseDirList_name (h name hname)]
  simp

namespace Settings

/-! ## Settings with a list -/

section Fields

variable {α : Type} {field : Field} {read : Value → Except FieldFault α} {default : α} {v : Option Value} {e : FieldError}

theorem mem_faultOf {x : Except FieldError α} : e ∈ faultOf x ↔ x = .error e := by
  cases x with
  | ok a => simp [faultOf]
  | error e' => simp [faultOf, eq_comm]

/-- A field that does not take its value is reported under its own name. -/
theorem field_of_fieldOr (h : fieldOr field read default v = .error e) : e.field = field := by
  cases v with
  | none => nomatch h
  | some v =>
    unfold fieldOr at h
    cases hread : read v with
    | ok a => simp [hread, Except.mapError] at h
    | error fault =>
      simp only [hread, Except.mapError, Except.error.injEq] at h
      rw [← h]

end Fields

variable {value? : Field → Option Value} {items : List Value}

/-- A list for the directories is taken as its items with commas between them, when they can all be written. -/
theorem fieldOr_list (default : String) :
    fieldOr .namingDirs (fun v => (joinList v).bind textOf) default (some (.list items)) =
      if Value.areWritable items then .ok (",".intercalate (items.map Value.asText))
      else .error ⟨.namingDirs, .unwritable⟩ := by
  unfold fieldOr joinList
  dsimp only
  split_ifs <;> rfl

/-- Settings with a list for the directories hold its items with commas between them. -/
theorem namingDirs_of_ofFields (h : value? .namingDirs = some (.list items)) {s : WorkspaceLint.Settings}
    (hs : ofFields value? = .ok s) :
    Value.areWritable items = true ∧ s.namingDirs = ",".intercalate (items.map Value.asText) := by
  unfold ofFields at hs
  simp only [h, fieldOr_list] at hs
  split_ifs at hs with hwritable
  · refine ⟨hwritable, ?_⟩
    split at hs
    · rename_i hdirs _
      cases hs
      exact (Except.ok.inj hdirs).symm
    · nomatch hs
  · split at hs
    · rename_i hdirs _
      nomatch hdirs
    · nomatch hs

/-- A list for the directories is at fault exactly when one of its items cannot be written. -/
theorem exists_fault_iff (h : value? .namingDirs = some (.list items)) {faults : List FieldError}
    (hfaults : ofFields value? = .error faults) :
    (∃ e ∈ faults, e.field = .namingDirs) ↔ Value.areWritable items = false := by
  unfold ofFields at hfaults
  simp only [h, fieldOr_list] at hfaults
  split at hfaults
  · nomatch hfaults
  · cases hfaults
    have hother (field : Field) (hne : field ≠ .namingDirs) {α : Type} (read : Value → Except FieldFault α) (default : α)
        (v : Option Value) : ¬∃ e, fieldOr field read default v = .error e ∧ e.field = .namingDirs := by
      rintro ⟨e, he, hfield⟩
      exact hne ((field_of_fieldOr he).symm.trans hfield)
    simp only [List.mem_append, mem_faultOf, or_and_right, exists_or, hother .logLevel (by decide), hother .treeDepth (by decide),
      or_false, false_or]
    cases Value.areWritable items <;> simp

namespace Surroundings

variable (w : Surroundings) {entries : List (Value × Value)}

/-- The file of variables cannot be looked up, or it cannot be read. -/
theorem fileVariables_eq_error {e : LoadError} (h : w.fileVariables = .error e) :
    (∃ fault, e = .lookup fault) ∨ ∃ fault, e = .envFile fault := by
  rw [fileVariables] at h
  cases hfile : w.files.isFile? (w.directory.child envFileName) with
  | error fault =>
    rw [hfile] at h
    cases h
    exact Or.inl ⟨fault, rfl⟩
  | ok isFile =>
    rw [hfile] at h
    cases isFile with
    | false => nomatch h
    | true =>
      cases htext : w.files.text? (w.directory.child envFileName) with
      | error fault =>
        rw [htext] at h
        cases h
        exact Or.inr ⟨fault, rfl⟩
      | ok text =>
        rw [htext] at h
        nomatch h

/-- Where values for the fields are looked up, the ones of the configuration come first; or this fails before any field is looked
at. -/
theorem values_cases (startOfNames : String) :
    (∃ value? : String → Option Value, w.values startOfNames entries = .ok value? ∧
      ∀ name v, entryIn? entries name = some v → value? name = some v) ∨
    ∃ e, w.values startOfNames entries = .error e ∧ ∀ faults, e ≠ .invalid faults := by
  unfold values
  cases entries.all fun e => isTextKey e.1 with
  | false => exact Or.inr ⟨.keyNotText, rfl, nofun⟩
  | true =>
    cases hvars : w.fileVariables with
    | error e =>
      refine Or.inr ⟨e, rfl, ?_⟩
      rcases w.fileVariables_eq_error hvars with ⟨fault, rfl⟩ | ⟨fault, rfl⟩
      · nofun
      · nofun
    | ok vars =>
      refine Or.inl ⟨_, rfl, fun name v h => ?_⟩
      simp only [lookup?, h, Option.orElse]

/-- The settings of a configuration that gives the directories a value are made of values for the fields, this one among them, or
they fail before any field is looked at. -/
theorem settings_cases {v : Value} (h : entryIn? entries Field.namingDirs.name = some v) :
    (∃ value? : Field → Option Value, value? .namingDirs = some v ∧
      w.settings entries = (ofFields value?).mapError .invalid) ∨
    ∃ e, w.settings entries = .error e ∧ ∀ faults, e ≠ .invalid faults := by
  unfold settings
  rcases w.values_cases startOfNames with ⟨value?, hvalues, hentry⟩ | ⟨e, hvalues, he⟩
  · rw [hvalues]
    exact Or.inl ⟨fun field => value? field.name, hentry _ v h, rfl⟩
  · rw [hvalues]
    exact Or.inr ⟨e, rfl, he⟩

end Surroundings

/-- Lists and texts of directories are read alike. What is read from a text are names, and the names with commas between them are
read as themselves. A configuration with a list is taken unless an item cannot be written, whatever else is wrong with it; the
directories are then those of the items one after another, and the items themselves when they are names. -/
theorem targetDirs_forms :
    (∀ raw, (∀ name ∈ parseDirList raw, IsDirName name) ∧
      parseDirList (",".intercalate (parseDirList raw)) = parseDirList raw) ∧
    ∀ (w : Surroundings) (entries : List (Value × Value)) (items : List Value),
      entryIn? entries Field.namingDirs.name = some (.list items) →
        (∀ s, w.settings entries = .ok s →
          Value.areWritable items = true ∧ s.targetDirs = items.flatMap (fun v => parseDirList v.asText) ∧
            ∀ names, (∀ name ∈ names, IsDirName name) → items = names.map .text → s.targetDirs = names) ∧
        ∀ faults, w.settings entries = .error (.invalid faults) →
          ((∃ e ∈ faults, e.field = .namingDirs) ↔ Value.areWritable items = false) := by
  refine ⟨?_, ?_⟩
  · intro raw
    have hnames : ∀ name ∈ parseDirList raw, IsDirName name := fun name => isDirName_of_mem_parseDirList
    exact ⟨hnames, parseDirList_names hnames⟩
  · intro w entries items hitems
    obtain ⟨value?, hvalue, hsettings⟩ | ⟨e, hsettings, he⟩ := w.settings_cases hitems
    · rw [hsettings]
      cases hfields : ofFields value? with
      | ok s =>
        refine ⟨?_, nofun⟩
        rintro s ⟨⟩
        obtain ⟨hwritable, hdirs⟩ := namingDirs_of_ofFields hvalue hfields
        have htarget : s.targetDirs = items.flatMap fun v => parseDirList v.asText := by
          unfold targetDirs
          rw [hdirs, parseDirList_intercalate, List.flatMap_map]
        refine ⟨hwritable, htarget, ?_⟩
        rintro names hnames rfl
        have htexts : (names.map Value.text).map Value.asText = names := by
          rw [List.map_map]
          exact List.map_id names
        unfold targetDirs
        rw [hdirs, htexts, parseDirList_names hnames]
      | error faults =>
        refine ⟨nofun, ?_⟩
        rintro faults ⟨⟩
        exact exists_fault_iff hvalue hfields
    · rw [hsettings]
      refine ⟨nofun, ?_⟩
      rintro faults ⟨⟩
      exact absurd rfl (he faults)

/-- A working directory without files, and an environment that sets the directories as well. -/
def listSurroundings : Surroundings where
  files := { entries := [] }
  directory := .absolute []
  environment := [("BLUEPRINT_LINT_NAMING_DIRS", "tests")]

/-- A list with a text of two names, an empty one, a list of texts, and a truth value. -/
def mixedItems : List Value := [.text "a b ,\u3000scripts", .text " ", .list [.text "x", .text "y"], .bool true]

/-- The names in that list, which are the items of another list. -/
def mixedNames : List String := ["a b", "scripts", "['x'", "'y']", "True"]

/-- A configuration with a list for the directories. -/
def listEntries (items : List Value) : List (Value × Value) := [(.text "naming_dirs", .list items)]

/-- Both lists give the same directories, as does the text of the second, and the list within the first is cut at its comma. -/
theorem targetDirs_forms_mixed :
    (∃ s, listSurroundings.settings (listEntries mixedItems) = .ok s ∧ s.targetDirs = mixedNames) ∧
      (∃ s, listSurroundings.settings (listEntries (mixedNames.map .text)) = .ok s ∧ s.targetDirs = mixedNames) ∧
      parseDirList (",".intercalate mixedNames) = mixedNames := by
  obtain ⟨hread, hlist⟩ := targetDirs_forms
  have hmixed : (mixedItems.flatMap fun v => parseDirList v.asText) = mixedNames := by decide +kernel
  have hraw : parseDirList "a b ,\u3000scripts,['x', 'y'],True" = mixedNames := by decide +kernel
  obtain ⟨hnames, hback⟩ := hread "a b ,\u3000scripts,['x', 'y'],True"
  rw [hraw] at hnames hback
  have hmixedSettings : listSurroundings.settings (listEntries mixedItems) =
      .ok { namingDirs := ",".intercalate (mixedItems.map Value.asText) } := rfl
  have hnamesSettings : listSurroundings.settings (listEntries (mixedNames.map .text)) =
      .ok { namingDirs := ",".intercalate mixedNames } := rfl
  refine ⟨⟨_, hmixedSettings, ?_⟩, ⟨_, hnamesSettings, ?_⟩, hback⟩
  · obtain ⟨-, hdirs, -⟩ := (hlist listSurroundings (listEntries mixedItems) mixedItems rfl).1 _ hmixedSettings
    rw [hdirs, hmixed]
  · obtain ⟨-, -, hsame⟩ := (hlist listSurroundings (listEntries (mixedNames.map .text)) (mixedNames.map .text) rfl).1 _
      hnamesSettings
    exact hsame mixedNames hnames rfl

end Settings

end WorkspaceLint
