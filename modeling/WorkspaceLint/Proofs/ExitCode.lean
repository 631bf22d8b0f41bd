import WorkspaceLint.CommandLine.Run
import WorkspaceLint.Proofs.Manifests

/-!
# The exit code of a lint call

A lint call whose arguments are accepted ends with the code that its report asks for, or with 2 when the settings cannot be loaded
or the run fails, unless something escapes from it: a key of the configuration file that is no text, a log level that does not
exist, or a fault of a library that calls are not prepared for. `Escapes` says exactly when that is, whatever the libraries do
(`run_exitCode`); with the libraries as they are modelled it takes a key that is no text, a fault of a YAML document that no call is
prepared for, or a level that does not exist (`escapes_modelled_iff`).
-/

namespace WorkspaceLint

/-- A report is clean when it has no diagnostics. -/
theorem LintReport.isClean_iff (r : LintReport) : r.isClean = true ↔ r.diagnostics = [] := List.isEmpty_iff

theorem LintReport.exitCode_eq_zero (r : LintReport) : r.exitCode = 0 ↔ r.diagnostics = [] := by
  rw [← r.isClean_iff, exitCode]
  cases r.isClean <;> simp

theorem LintReport.exitCode_eq_one (r : LintReport) : r.exitCode = 1 ↔ r.diagnostics ≠ [] := by
  rw [ne_eq, ← r.isClean_iff, exitCode]
  cases r.isClean <;> simp

/-- A name in any case is refused when no level has it in upper case. -/
theorem Level.ofAnyCase_eq_error {s name : String} :
    Level.ofAnyCase s = .error name ↔ name = Text.uppered s ∧ ∀ l : Level, l.name ≠ Text.uppered s := by
  rw [ofAnyCase]
  cases h : ofName? (Text.uppered s) with
  | some l =>
    have hl : l.name = Text.uppered s := by simpa using List.find?_some h
    exact ⟨fun h' => (nomatch h'), fun h' => absurd hl (h'.2 l)⟩
  | none =>
    have hall : ∀ l : Level, l.name ≠ Text.uppered s := by
      intro l hl
      rw [← hl, ofName?_name] at h
      nomatch h
    exact ⟨fun h' => ⟨(Except.error.inj h').symm, hall⟩, fun h' => by rw [h'.1]⟩

namespace CommandLine

open Settings (Surroundings Format MappingError configFile entriesOf loadMapping isTextKey)

variable {ε : Type} {lib : Libraries ε} {w : Surroundings} {config : Option Path} {path : Path}

/-! ## Settings that cannot be loaded -/

/-- Entries are no named values when a key among them is no text. -/
theorem named?_eq_none_iff {entries : List (Value × Value)} :
    named? entries = none ↔ ∃ e ∈ entries, isTextKey e.1 = false := by
  induction entries with
  | nil => simp [named?]
  | cons e rest ih =>
    obtain ⟨key, item⟩ := e
    rw [List.exists_mem_cons_iff, ← ih]
    cases key with
    | text name => simp [named?, isTextKey]
    | _ => simp [named?, isTextKey]

/-- What escapes while a configuration file is loaded. -/
inductive UnloadableConfig (lib : Libraries ε) (w : Surroundings) (path : Path) : Prop where
  /-- The octets of the file are not read, with a fault that calls are not prepared for. -/
  | content {format : Format} {octets : List UInt8} {e : ε} (file : configFile w.files path = .ok (format, octets))
      (fails : lib.read format octets = .error (.unexpected e)) : UnloadableConfig lib w path
  /-- A key of its map is no text. -/
  | key {entries : List (Value × Value)} {e : Value × Value} (loaded : lib.entries w path = .ok entries) (mem : e ∈ entries)
      (notText : isTextKey e.1 = false) : UnloadableConfig lib w path

/-- The entries of a configuration file end a call only with a fault of the library that reads it. -/
theorem entries_eq_unexpected_iff {e : ε} :
    lib.entries w path = .error (.unexpected e) ↔
      ∃ format octets, configFile w.files path = .ok (format, octets) ∧ lib.read format octets = .error (.unexpected e) := by
  rw [Libraries.entries]
  cases hfile : configFile w.files path with
  | error fault => simp [Except.mapError, bind, Except.bind]
  | ok file =>
    obtain ⟨format, octets⟩ := file
    cases hread : lib.read format octets with
    | error fault => simp [Except.mapError, bind, Except.bind, hread]
    | ok v => cases hentries : entriesOf path v <;> simp [Except.mapError, bind, Except.bind, hread, hentries]

/-- The named values of a configuration file end a call with what escapes while it is loaded. -/
theorem named_eq_unexpected_iff :
    (∃ c, lib.named w config = .error (.unexpected c)) ↔ ∃ path, config = some path ∧ UnloadableConfig lib w path := by
  cases config with
  | none => simp [Libraries.named]
  | some path =>
    simp only [Option.some.injEq, exists_eq_left', Libraries.named]
    cases hentries : lib.entries w path with
    | error fault =>
      constructor
      · rintro ⟨c, hc⟩
        cases fault with
        | expected message => nomatch hc
        | unexpected e =>
          obtain ⟨format, octets, hfile, hread⟩ := entries_eq_unexpected_iff.1 hentries
          exact .content hfile hread
      · rintro (⟨hfile, hread⟩ | ⟨hloaded, -, -⟩)
        · rw [entries_eq_unexpected_iff.2 ⟨_, _, hfile, hread⟩] at hentries
          cases hentries
          exact ⟨_, rfl⟩
        · rw [hentries] at hloaded
          nomatch hloaded
    | ok entries =>
      constructor
      · rintro ⟨c, hc⟩
        cases hnamed : named? entries with
        | none =>
          obtain ⟨e, hmem, hkey⟩ := named?_eq_none_iff.1 hnamed
          exact .key hentries hmem hkey
        | some named =>
          simp only [Except.mapError, bind, Except.bind, hnamed] at hc
          nomatch hc
      · rintro (⟨hfile, hread⟩ | ⟨hloaded, hmem, hkey⟩)
        · rw [entries_eq_unexpected_iff.2 ⟨_, _, hfile, hread⟩] at hentries
          nomatch hentries
        · rw [hentries] at hloaded
          cases hloaded
          refine ⟨.keyNotText, ?_⟩
          simp only [Except.mapError, bind, Except.bind, named?_eq_none_iff.2 ⟨_, hmem, hkey⟩]
          rfl

/-- The settings end a call with what escapes while its configuration file is loaded, or with a fault of the library that makes
them. -/
theorem load_eq_unexpected_iff :
    (∃ c, lib.load w config = .error (.unexpected c)) ↔ (∃ path, config = some path ∧ UnloadableConfig lib w path) ∨
      ∃ named e, lib.named w config = .ok named ∧ lib.settings w named = .error (.unexpected e) := by
  rw [← named_eq_unexpected_iff, Libraries.load]
  cases hnamed : lib.named w config with
  | error fault => simp [bind, Except.bind]
  | ok named =>
    cases hsettings : lib.settings w named with
    | error fault => cases fault <;> simp [bind, Except.bind, Except.mapError, LibraryFault.map, hsettings]
    | ok s => simp [bind, Except.bind, Except.mapError, hsettings]

/-! ## Calls -/

variable {r : Request} {scanPath : Path}

/-- The standard output does not take a report that is to be written to it. -/
structure UnwritableReport (lib : Libraries ε) (isJson : Bool) (report : LintReport) : Prop where
  /-- The report is wanted as JSON. -/
  asJson : isJson = true
  /-- There is something to report. -/
  reported : report.diagnostics ≠ []
  /-- Its text is not taken. -/
  fails : ∃ e, lib.write (Report.json report.diagnostics ++ "\n") = .error e

/-- What ends a lint call without an exit code: its configuration file, the settings, the level from which events are to be logged,
or the standard output. -/
inductive Escapes (lib : Libraries ε) (w : Surroundings) (r : Request) (scanPath : Path) (config : Option Path) : Prop where
  /-- The configuration file cannot be loaded. -/
  | config {path : Path} (given : config = some path) (fault : UnloadableConfig lib w path) : Escapes lib w r scanPath config
  /-- The settings are not made, with a fault that calls are not prepared for. -/
  | settings {named : List (String × Value)} {e : ε} (loaded : lib.named w config = .ok named)
      (fails : lib.settings w named = .error (.unexpected e)) : Escapes lib w r scanPath config
  /-- The settings are made and name no level. -/
  | level {s : WorkspaceLint.Settings} (loaded : lib.load w config = .ok s)
      (unknown : ∀ l : Level, l.name ≠ Text.uppered (r.levelName s)) : Escapes lib w r scanPath config
  /-- The report of the run cannot be written. -/
  | output {s : WorkspaceLint.Settings} {report : LintReport} (loaded : lib.load w config = .ok s)
      (run : (lint w.files s.rules (r.namingDirs s) scanPath).outcome = .ok report)
      (fault : UnwritableReport lib r.isJson report) : Escapes lib w r scanPath config

/-- What the exit code of a lint call says about its settings and its run. -/
structure ExitCodeSays (lib : Libraries ε) (w : Surroundings) (r : Request) (scanPath : Path) (config : Option Path)
    (code : Nat) : Prop where
  /-- There are three codes. -/
  range : code = 0 ∨ code = 1 ∨ code = 2
  /-- The code is 0 when the run reports nothing. -/
  clean : code = 0 ↔ ∃ s report, lib.load w config = .ok s ∧
    (lint w.files s.rules (r.namingDirs s) scanPath).outcome = .ok report ∧ report.diagnostics = []
  /-- The code is 1 when the run reports something. -/
  reported : code = 1 ↔ ∃ s report, lib.load w config = .ok s ∧
    (lint w.files s.rules (r.namingDirs s) scanPath).outcome = .ok report ∧ report.diagnostics ≠ []
  /-- The code is 2 when the settings cannot be loaded or the run fails. -/
  failed : code = 2 ↔ (∃ e, lib.load w config = .error e) ∨ ∃ s e, lib.load w config = .ok s ∧
    (lint w.files s.rules (r.namingDirs s) scanPath).outcome = .error e

/-- A lint run that fails ends with the code 2. -/
theorem finish_of_error (lib : Libraries ε) {run : Logged LintReport} {e : Failure} (h : run.outcome = .error e)
    (isJson : Bool) (threshold : Level) : ∃ f, finish lib isJson threshold run = .finished f ∧ f.exitCode = 2 := by
  rw [finish, h]
  exact ⟨_, rfl, rfl⟩

/-- A lint run whose report can be written ends with the code of the report. -/
theorem finish_of_ok {run : Logged LintReport} {report : LintReport} (h : run.outcome = .ok report) {isJson : Bool}
    (hwrite : ¬UnwritableReport lib isJson report) (threshold : Level) :
    ∃ f, finish lib isJson threshold run = .finished f ∧ f.exitCode = report.exitCode := by
  rw [finish, h]
  dsimp only
  split
  · exact ⟨_, rfl, rfl⟩
  · rename_i hclean
    split
    · rename_i hjson
      cases htext : lib.write (Report.json report.diagnostics ++ "\n") with
      | error e => exact absurd ⟨hjson, fun hnil => hclean (report.isClean_iff.2 hnil), e, htext⟩ hwrite
      | ok _ => exact ⟨_, rfl, rfl⟩
    · exact ⟨_, rfl, rfl⟩

/-- A lint run whose report cannot be written ends without an exit code. -/
theorem finish_of_unwritable {run : Logged LintReport} {report : LintReport} (h : run.outcome = .ok report) {isJson : Bool}
    (hwrite : UnwritableReport lib isJson report) (threshold : Level) :
    ∃ c, finish lib isJson threshold run = .crashed c := by
  obtain ⟨e, he⟩ := hwrite.fails
  rw [finish, h]
  dsimp only
  rw [if_neg fun hclean => hwrite.reported (report.isClean_iff.1 hclean), if_pos hwrite.asJson, he]
  exact ⟨_, rfl⟩

/-- A request logs and then lints. -/
theorem outcome_run (w : Surroundings) (scanPath : Path) (r : Request) (s : WorkspaceLint.Settings) :
    (r.run w scanPath s).outcome = (lint w.files s.rules (r.namingDirs s) scanPath).outcome := by
  rw [Request.run, Logged.outcome_bind, Logged.outcome_log]
  rfl

/-- The path that an accepted request wants scanned is a directory. -/
theorem isDir?_scanPath (hw : w.files.WellFormed) (hd : w.files.isDir? w.directory = .ok true) {r : Request} {scanPath : Path}
    (h : r.scanPath w = .ok scanPath) : w.files.isDir? scanPath = .ok true := by
  rw [Request.scanPath] at h
  split at h
  · cases h
    exact hd
  · rw [fitPath] at h
    split at h
    · rename_i n hn
      split at h
      · rename_i hdir
        cases h
        exact Files.FileSystem.leadsTo_eq_true.2 ⟨Files.FileSystem.nul_not_mem_of_stat? hw hn, n, hn, hdir⟩
      · nomatch h
    · nomatch h

namespace ExitCodeSays

/-- The code 2 is right when the settings cannot be loaded. -/
theorem of_load_error {e : LibraryFault (Escape ε)} (h : lib.load w config = .error e) :
    ExitCodeSays lib w r scanPath config 2 where
  range := Or.inr (Or.inr rfl)
  clean := by simp [h]
  reported := by simp [h]
  failed := by simp [h]

/-- With settings that are loaded the code 2 is right for a run that fails. -/
theorem of_run_error {s : WorkspaceLint.Settings} (h : lib.load w config = .ok s) {e : Failure}
    (hrun : (lint w.files s.rules (r.namingDirs s) scanPath).outcome = .error e) :
    ExitCodeSays lib w r scanPath config 2 where
  range := Or.inr (Or.inr rfl)
  clean := by simp [h, hrun]
  reported := by simp [h, hrun]
  failed := by simp [h, hrun]

/-- With settings that are loaded the code of its report is right for a run. -/
theorem of_run_ok {s : WorkspaceLint.Settings} (h : lib.load w config = .ok s) {report : LintReport}
    (hrun : (lint w.files s.rules (r.namingDirs s) scanPath).outcome = .ok report) :
    ExitCodeSays lib w r scanPath config report.exitCode := by
  have hzero := report.exitCode_eq_zero
  have hone := report.exitCode_eq_one
  have hrange : report.exitCode = 0 ∨ report.exitCode = 1 := by
    rw [hzero, hone]
    exact Classical.em _
  have htwo : report.exitCode ≠ 2 := by omega
  refine ⟨hrange.imp_right Or.inl, ?_, ?_, ?_⟩
  · simp [h, hrun, hzero]
  · simp [h, hrun, hone]
  · simp [h, hrun, htwo]

end ExitCodeSays

/-- What a request whose paths fit can come to: its settings are not loaded, and escape or are refused, or they are loaded, and
their level is unknown or the run is finished. -/
theorem ending_cases (lib : Libraries ε) (hscan : r.scanPath w = .ok scanPath) (hconfig : r.configPath w = .ok config) :
    (∃ c, lib.load w config = .error (.unexpected c) ∧ r.ending lib w = .crashed c) ∨
      (∃ message, lib.load w config = .error (.expected message) ∧
        r.ending lib w = refused (Settings.loadFailed message)) ∨
      ∃ s, lib.load w config = .ok s ∧
        ((∃ name, Level.ofAnyCase (r.levelName s) = .error name ∧ r.ending lib w = .crashed (.unknownLevel name)) ∨
          ∃ threshold, Level.ofAnyCase (r.levelName s) = .ok threshold ∧
            r.ending lib w = finish lib r.isJson threshold (r.run w scanPath s)) := by
  rw [Request.ending, hscan, hconfig]
  dsimp only
  cases lib.load w config with
  | error fault => cases fault <;> simp
  | ok s => cases hl : Level.ofAnyCase (r.levelName s) <;> simp [hl]

/-- A request whose paths fit ends without an exit code when something escapes. -/
theorem exists_crashed (hscan : r.scanPath w = .ok scanPath) (hconfig : r.configPath w = .ok config)
    (h : Escapes lib w r scanPath config) : ∃ c, r.ending lib w = .crashed c := by
  have hload (hfails : ∃ c, lib.load w config = .error (.unexpected c)) : ∃ c, r.ending lib w = .crashed c := by
    obtain ⟨c', hc'⟩ := hfails
    obtain ⟨c, -, ho⟩ | ⟨message, hl, -⟩ | ⟨s, hl, -⟩ := ending_cases lib hscan hconfig
    · exact ⟨c, ho⟩
    · nomatch hc'.symm.trans hl
    · nomatch hc'.symm.trans hl
  cases h with
  | config given fault => exact hload (load_eq_unexpected_iff.2 (Or.inl ⟨_, given, fault⟩))
  | settings loaded fails => exact hload (load_eq_unexpected_iff.2 (Or.inr ⟨_, _, loaded, fails⟩))
  | level loaded unknown =>
    obtain ⟨c, hl, -⟩ | ⟨message, hl, -⟩ | ⟨s, hl, ⟨name, -, ho⟩ | ⟨threshold, ht, -⟩⟩ := ending_cases lib hscan hconfig
    · nomatch loaded.symm.trans hl
    · nomatch loaded.symm.trans hl
    · exact ⟨_, ho⟩
    · cases loaded.symm.trans hl
      nomatch (Level.ofAnyCase_eq_error.2 ⟨rfl, unknown⟩).symm.trans ht
  | output loaded run fault =>
    obtain ⟨c, hl, -⟩ | ⟨message, hl, -⟩ | ⟨s, hl, ⟨name, -, ho⟩ | ⟨threshold, -, ho⟩⟩ := ending_cases lib hscan hconfig
    · nomatch loaded.symm.trans hl
    · nomatch loaded.symm.trans hl
    · exact ⟨_, ho⟩
    · cases loaded.symm.trans hl
      rw [ho]
      exact finish_of_unwritable ((outcome_run w scanPath r _).trans run) fault threshold

/-- A request whose paths fit has the right exit code unless something escapes. -/
theorem exists_finished (hscan : r.scanPath w = .ok scanPath) (hconfig : r.configPath w = .ok config)
    (h : ¬Escapes lib w r scanPath config) :
    ∃ f, r.ending lib w = .finished f ∧ ExitCodeSays lib w r scanPath config f.exitCode := by
  obtain ⟨c, hl, -⟩ | ⟨message, hl, ho⟩ | ⟨s, hl, ⟨name, hname, -⟩ | ⟨threshold, -, ho⟩⟩ := ending_cases lib hscan hconfig
  · obtain ⟨path, given, fault⟩ | ⟨named, e, loaded, fails⟩ := load_eq_unexpected_iff.1 ⟨c, hl⟩
    · exact absurd (.config given fault) h
    · exact absurd (.settings loaded fails) h
  · exact ⟨_, ho, .of_load_error hl⟩
  · exact absurd (.level hl (Level.ofAnyCase_eq_error.1 hname).2) h
  · rw [ho]
    cases hrun : (lint w.files s.rules (r.namingDirs s) scanPath).outcome with
    | error e =>
      obtain ⟨f, hf, hcode⟩ := finish_of_error lib ((outcome_run w scanPath r s).trans hrun) r.isJson threshold
      exact ⟨f, hf, hcode ▸ .of_run_error hl hrun⟩
    | ok report =>
      have hwrite : ¬UnwritableReport lib r.isJson report := fun hfault =>
        h (.output hl hrun hfault)
      obtain ⟨f, hf, hcode⟩ := finish_of_ok ((outcome_run w scanPath r s).trans hrun) hwrite threshold
      exact ⟨f, hf, hcode ▸ .of_run_ok hl hrun⟩

/-- A lint call whose arguments are accepted has a scan root and, whatever the libraries do, ends without an exit code exactly when
something escapes; in all other cases its exit code says how it went. -/
theorem run_exitCode (lib : Libraries ε) (hw : w.files.WellFormed) (hd : w.files.isDir? w.directory = .ok true)
    {args : List String} (hcall : callOf args = .ok (.lint r)) (hscan : r.scanPath w = .ok scanPath)
    (hconfig : r.configPath w = .ok config) :
    (∃ root, w.files.resolve scanPath = .ok root) ∧
      ((∃ c, runWith lib w args = .crashed c) ↔ Escapes lib w r scanPath config) ∧
      (¬Escapes lib w r scanPath config →
        ∃ f, runWith lib w args = .finished f ∧ ExitCodeSays lib w r scanPath config f.exitCode) := by
  have hrun : runWith lib w args = r.ending lib w := by rw [runWith, hcall]
  obtain ⟨q, -, hresolve, -⟩ := Discovery.resolve_of_isDir (isDir?_scanPath hw hd hscan)
  rw [hrun]
  refine ⟨⟨_, hresolve⟩, ⟨fun ⟨c, hc⟩ => ?_, exists_crashed hscan hconfig⟩, exists_finished hscan hconfig⟩
  by_contra h
  obtain ⟨f, hf, -⟩ := exists_finished hscan hconfig h
  nomatch hc.symm.trans hf

/-! ## With the libraries as they are modelled -/

/-- What calls make of a configuration file that has no format or no octets is a message. -/
theorem faultOfMapping_of_configFile {e : MappingError} (h : configFile w.files path = .error e) :
    faultOfMapping e = .expected e.message := by
  rw [configFile] at h
  split at h
  · cases h
    rfl
  · split at h
    · cases h
      rfl
    · cases hoctets : w.files.octets? path with
      | error fault =>
        rw [hoctets] at h
        cases h
        rfl
      | ok octets =>
        rw [hoctets] at h
        nomatch h

theorem faultOfMapping_of_entriesOf {v : Value} {e : MappingError} (h : entriesOf path v = .error e) :
    faultOfMapping e = .expected e.message := by
  cases v <;> cases h
  all_goals rfl

/-- The entries of a configuration file are those of the map that it holds. -/
theorem entries_modelled (w : Surroundings) (path : Path) :
    modelled.entries w path = (loadMapping w.files path).mapError faultOfMapping := by
  rw [Libraries.entries, loadMapping]
  cases hfile : configFile w.files path with
  | error e => exact congrArg Except.error (faultOfMapping_of_configFile hfile).symm
  | ok file =>
    obtain ⟨format, octets⟩ := file
    cases hread : format.read octets with
    | error e => simp [Except.mapError, bind, Except.bind, modelled, hread]
    | ok v =>
      cases hentries : entriesOf path v with
      | error e =>
        have he := faultOfMapping_of_entriesOf hentries
        simp [Except.mapError, bind, Except.bind, modelled, hread, hentries, he]
      | ok entries => simp [Except.mapError, bind, Except.bind, modelled, hread, hentries]

/-- Named values are entries whose keys are their names. -/
theorem map_of_named? {entries : List (Value × Value)} {named : List (String × Value)} (h : named? entries = some named) :
    named.map (fun (name, item) => (Value.text name, item)) = entries := by
  induction entries generalizing named with
  | nil =>
    cases h
    rfl
  | cons e rest ih =>
    obtain ⟨key, item⟩ := e
    cases key with
    | text name =>
      obtain ⟨more, hmore, rfl⟩ := Option.map_eq_some_iff.1 h
      rw [List.map_cons, ih hmore]
    | _ => nomatch h

/-- Settings made of entries fail at a key that is no text before anything else is looked at. -/
theorem settings_of_keyNotText {entries : List (Value × Value)} (h : ∃ e ∈ entries, isTextKey e.1 = false) :
    w.settings entries = .error .keyNotText := by
  have hall : (entries.all fun e => isTextKey e.1) = false := by simpa using h
  rw [Surroundings.settings, Surroundings.values, hall]
  rfl

theorem settings_modelled (w : Surroundings) (named : List (String × Value)) :
    modelled.settings w named =
      (w.settings (named.map fun (name, item) => (.text name, item))).mapError fun e => .expected e.message := rfl

/-- With the libraries as they are modelled named values make settings or are refused. -/
theorem settings_modelled_ne_unexpected {named : List (String × Value)} {e : Yaml.Error} :
    modelled.settings w named ≠ .error (.unexpected e) := by
  rw [settings_modelled]
  cases w.settings (named.map fun (name, item) => (.text name, item)) <;> simp [Except.mapError]

/-- With the libraries as they are modelled the same settings are loaded. -/
theorem load_modelled_eq_ok {s : WorkspaceLint.Settings} : modelled.load w config = .ok s ↔ w.load config = .ok s := by
  have hsettings (entries : List (Value × Value)) (named : List (String × Value))
      (h : named.map (fun (name, item) => (Value.text name, item)) = entries) :
      (modelled.settings w named).mapError (·.map Escape.library) = .ok s ↔ w.settings entries = .ok s := by
    rw [settings_modelled, h]
    cases w.settings entries <;> simp [Except.mapError]
  cases config with
  | none => exact hsettings [] [] rfl
  | some path =>
    rw [Libraries.load, Libraries.named, entries_modelled, Surroundings.load, Surroundings.entries]
    cases hloaded : loadMapping w.files path with
    | error e => simp [Except.mapError, bind, Except.bind]
    | ok entries =>
      cases hnamed : named? entries with
      | none =>
        have hfails := settings_of_keyNotText (w := w) (named?_eq_none_iff.1 hnamed)
        simp [Except.mapError, bind, Except.bind, hnamed, hfails, throw, throwThe, MonadExceptOf.throw]
      | some named =>
        have := hsettings entries named (map_of_named? hnamed)
        simpa [Except.mapError, bind, Except.bind, hnamed, pure, Except.pure] using this

/-- Calls are not prepared for a fault of a YAML document that escapes, and for nothing else that a configuration file may have. -/
theorem faultOfMapping_eq_unexpected_iff {m : MappingError} {e : Yaml.Error} :
    faultOfMapping m = .unexpected e ↔ m = .yaml e ∧ escapes e = true := by
  cases m with
  | yaml e' =>
    rw [faultOfMapping]
    cases he : escapes e' with
    | true =>
      simp only [if_true, LibraryFault.unexpected.injEq, MappingError.yaml.injEq]
      exact ⟨fun h => ⟨h, h ▸ he⟩, fun h => h.1⟩
    | false =>
      simp only [Bool.false_eq_true, if_false, MappingError.yaml.injEq, reduceCtorEq, false_iff]
      rintro ⟨rfl, h⟩
      nomatch he.symm.trans h
  | _ => simp [faultOfMapping]

/-- With the libraries as they are modelled what escapes while a configuration file is loaded is the fault of a YAML document that no
call is prepared for, or a key that is no text. -/
theorem unloadableConfig_modelled_iff : UnloadableConfig modelled w path ↔
    (∃ e, loadMapping w.files path = .error (.yaml e) ∧ escapes e = true) ∨
      ∃ entries, loadMapping w.files path = .ok entries ∧ ∃ e ∈ entries, isTextKey e.1 = false := by
  have hcontent (e : Yaml.Error) : modelled.entries w path = .error (.unexpected e) ↔
      loadMapping w.files path = .error (.yaml e) ∧ escapes e = true := by
    rw [entries_modelled]
    cases loadMapping w.files path <;> simp [Except.mapError, faultOfMapping_eq_unexpected_iff]
  have hentries (entries : List (Value × Value)) : modelled.entries w path = .ok entries ↔
      loadMapping w.files path = .ok entries := by
    rw [entries_modelled]
    cases loadMapping w.files path <;> simp [Except.mapError]
  constructor
  · rintro (⟨hfile, hread⟩ | ⟨hloaded, hmem, hkey⟩)
    · exact Or.inl ⟨_, (hcontent _).1 (entries_eq_unexpected_iff.2 ⟨_, _, hfile, hread⟩)⟩
    · exact Or.inr ⟨_, (hentries _).1 hloaded, _, hmem, hkey⟩
  · rintro (⟨e, he⟩ | ⟨entries, hloaded, e, hmem, hkey⟩)
    · obtain ⟨format, octets, hfile, hread⟩ := entries_eq_unexpected_iff.1 ((hcontent e).2 he)
      exact .content hfile hread
    · exact .key ((hentries entries).2 hloaded) hmem hkey

/-- With the libraries as they are modelled a lint call ends without an exit code when its configuration file is a YAML document with
a fault that no call is prepared for, or has a key that is no text, or when its settings name no level. -/
theorem escapes_modelled_iff {r : Request} {scanPath : Path} : Escapes modelled w r scanPath config ↔
    (∃ path, config = some path ∧
      ((∃ e, loadMapping w.files path = .error (.yaml e) ∧ escapes e = true) ∨
        ∃ entries, loadMapping w.files path = .ok entries ∧ ∃ e ∈ entries, isTextKey e.1 = false)) ∨
    ∃ s, w.load config = .ok s ∧ ∀ l : Level, l.name ≠ Text.uppered (r.levelName s) := by
  simp only [← unloadableConfig_modelled_iff, ← load_modelled_eq_ok]
  constructor
  · rintro (⟨given, fault⟩ | ⟨-, fails⟩ | ⟨loaded, unknown⟩ | ⟨-, -, -, -, e, he⟩)
    · exact Or.inl ⟨_, given, fault⟩
    · exact absurd fails settings_modelled_ne_unexpected
    · exact Or.inr ⟨_, loaded, unknown⟩
    · nomatch he
  · rintro (⟨path, given, fault⟩ | ⟨s, loaded, unknown⟩)
    · exact .config given fault
    · exact .level loaded unknown

/-- Nothing escapes from a verbose call without a configuration file, with the libraries as they are modelled. -/
theorem not_escapes_of_verbose {r : Request} {scanPath : Path} (h : r.isVerbose = true) :
    ¬Escapes modelled w r scanPath none := by
  rw [escapes_modelled_iff]
  rintro (⟨path, hpath, -⟩ | ⟨s, -, hunknown⟩)
  · nomatch hpath
  · refine hunknown .debug ?_
    rw [Request.levelName, h, if_pos rfl]
    decide

/-- One project with a script that is not named as it should be. -/
def scriptTree : Files.FileSystem := SampleTree.withProject [("scripts", .dir [("Deploy.ts", .file [])])]

/-- The surroundings of that project with a log level from the environment. -/
def leveled (level : String) : Surroundings where
  files := scriptTree
  directory := .absolute []
  environment := [("BLUEPRINT_LINT_LOG_LEVEL", level)]

theorem scriptTree_wellFormed : scriptTree.WellFormed := by decide

theorem scriptTree_isDir? : scriptTree.isDir? (.absolute []) = .ok true := by decide

/-- A verbose call says how it went although the environment names a level that does not exist. -/
theorem run_exitCode_verbose :
    ∃ f, runWith modelled (leveled "NOPE") ["--verbose", "w"] = .finished f ∧
      ExitCodeSays modelled (leveled "NOPE") ⟨some "w", none, none, false, true⟩ (.absolute ["w"]) none f.exitCode :=
  (run_exitCode modelled scriptTree_wellFormed scriptTree_isDir? (by decide) rfl rfl).2.2 (not_escapes_of_verbose rfl)

/-- A level that does not exist ends a call without an exit code, although its arguments are accepted. -/
theorem run_escapes_on_level :
    (leveled "NOPE").files.WellFormed ∧ callOf ["w"] = .ok (.lint ⟨some "w", none, none, false, false⟩) ∧
      run (leveled "NOPE") ["w"] = .crashed (.unknownLevel "NOPE") := by
  refine ⟨scriptTree_wellFormed, by decide, ?_⟩
  have hrun : (match run (leveled "NOPE") ["w"] with
      | .crashed (.unknownLevel name) => name == "NOPE"
      | _ => false) = true := by decide +kernel
  split at hrun
  · rename_i name h
    rw [h, eq_of_beq hrun]
  · nomatch hrun

end CommandLine

end WorkspaceLint
