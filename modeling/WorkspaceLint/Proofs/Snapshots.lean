import WorkspaceLint.Proofs.Isolation
import WorkspaceLint.Proofs.ListingOrder

/-!
# Snapshots of different depths

Every line of a snapshot is drawn for an entry at a place below the directory that is shown (`isDrawn_of_mem_placedLines`), and a
snapshot that ends sooner has the same lines without those for places that lie deeper (`lines_truncated`). Directories are entered
through links too, so the tree that is shown may go round in circles; nothing here needs it to end but the depth.

A snapshot is drawn as long as what is listed can be looked up (`exists_lines_iff`): a link whose target has a name that is too long
is enough for a snapshot to fail where a less deep one does not come to it.
-/

namespace WorkspaceLint.Snapshot

open Files (FileSystem Node)

instance : Inhabited Shown := ⟨.entry "" false []⟩

/-! ## Entries in a row -/

/-- A property of rows of entries holds of all of them when it holds of the empty row, and of a row when it holds of what is seen
below the first entry and of the entries after it. -/
@[elab_as_elim]
theorem row_induction {motive : List Shown → Prop} (nil : motive [])
    (entry : ∀ name isDir below rest, motive below → motive rest → motive (.entry name isDir below :: rest)) :
    ∀ row, motive row
  | [] => nil
  | .entry name isDir below :: rest =>
    entry name isDir below rest (row_induction nil entry below) (row_induction nil entry rest)

/-- What stands in the line of an entry after its connector. -/
def label (name : String) (isDir : Bool) : String := name ++ if isDir then "/" else ""

theorem linesBelow_cons (before name : String) (isDir : Bool) (below rest : List Shown) :
    linesBelow before (.entry name isDir below :: rest) =
      (before ++ connector rest.isEmpty ++ label name isDir) ::
        (linesBelow (before ++ margin rest.isEmpty) below ++ linesBelow before rest) := by
  rw [linesBelow, Shown.lines, label, List.cons_append, String.append_assoc]

/-! ## Lines and the places they are drawn for -/

/-- A line, and the place of the entry that it is drawn for: the names that lead there from the directory that is shown. -/
structure PlacedLine where
  /-- The names that lead to the entry. -/
  place : List String
  /-- The line. -/
  line : String
deriving DecidableEq

/-- The lines of entries in a row with their places, after a margin; the directory of the row lies at a place itself. -/
def placedLines (before : String) (above : List String) : List Shown → List PlacedLine
  | [] => []
  | .entry name isDir below :: rest =>
    ⟨above ++ [name], before ++ connector rest.isEmpty ++ label name isDir⟩ ::
      (placedLines (before ++ margin rest.isEmpty) (above ++ [name]) below ++ placedLines before above rest)

/-- The lines are those that are drawn. -/
theorem map_line_placedLines (row : List Shown) : ∀ before above,
    (placedLines before above row).map (·.line) = linesBelow before row := by
  induction row using row_induction with
  | nil =>
    intro before above
    rw [placedLines, linesBelow, List.map_nil]
  | entry name isDir below rest ihBelow ihRest =>
    intro before above
    rw [placedLines, linesBelow_cons, List.map_cons, List.map_append, ihBelow, ihRest]

/-- A line is drawn for an entry of the row, or for what is seen below one. -/
theorem exists_of_mem_placedLines {before : String} {above : List String} {p : PlacedLine} {row : List Shown}
    (h : p ∈ placedLines before above row) : ∃ name isDir below isLast, Shown.entry name isDir below ∈ row ∧
      (p = ⟨above ++ [name], before ++ connector isLast ++ label name isDir⟩ ∨
        p ∈ placedLines (before ++ margin isLast) (above ++ [name]) below) := by
  induction row with
  | nil =>
    rw [placedLines] at h
    nomatch h
  | cons s rest ih =>
    obtain ⟨name, isDir, below⟩ := s
    rw [placedLines, List.mem_cons, List.mem_append] at h
    rcases h with h | h | h
    · exact ⟨name, isDir, below, _, List.mem_cons_self, Or.inl h⟩
    · exact ⟨name, isDir, below, _, List.mem_cons_self, Or.inr h⟩
    · obtain ⟨name', isDir', below', isLast, hmem, hp⟩ := ih h
      exact ⟨name', isDir', below', isLast, List.mem_cons_of_mem _ hmem, hp⟩

/-- A line is drawn for each entry of the row. -/
theorem exists_mem_placedLines {name : String} {isDir : Bool} {below row : List Shown} (h : Shown.entry name isDir below ∈ row)
    (before : String) (above : List String) :
    ∃ isLast, ⟨above ++ [name], before ++ connector isLast ++ label name isDir⟩ ∈ placedLines before above row := by
  induction row with
  | nil => nomatch h
  | cons s rest ih =>
    obtain ⟨name', isDir', below'⟩ := s
    rw [placedLines]
    rcases List.mem_cons.1 h with h | h
    · cases h
      exact ⟨_, List.mem_cons_self⟩
    · obtain ⟨isLast, hmem⟩ := ih h
      exact ⟨isLast, List.mem_cons_of_mem _ (List.mem_append_right _ hmem)⟩

/-! ## Rows cut off at a depth -/

/-- What is seen of entries in a row down to a depth. -/
def cutOff : Nat → List Shown → List Shown
  | 0, _ => []
  | _ + 1, [] => []
  | depth + 1, .entry name isDir below :: rest => .entry name isDir (cutOff depth below) :: cutOff (depth + 1) rest

@[simp] theorem cutOff_nil (depth : Nat) : cutOff depth [] = [] := by
  cases depth <;> rw [cutOff]

/-- What is seen of an entry when what is below it is cut off at a depth. -/
def Shown.cutOffBelow (depth : Nat) : Shown → Shown
  | .entry name isDir below => .entry name isDir (cutOff depth below)

theorem cutOff_succ (depth : Nat) (row : List Shown) : cutOff (depth + 1) row = row.map (Shown.cutOffBelow depth) := by
  induction row with
  | nil => rw [cutOff, List.map_nil]
  | cons s rest ih =>
    obtain ⟨name, isDir, below⟩ := s
    rw [cutOff, ih, List.map_cons, Shown.cutOffBelow]

/-- No line is drawn for a place above the row. -/
theorem length_lt_of_mem_placedLines {p : PlacedLine} (row : List Shown) : ∀ {before above},
    p ∈ placedLines before above row → above.length < p.place.length := by
  induction row using row_induction with
  | nil =>
    intro before above h
    rw [placedLines] at h
    nomatch h
  | entry name isDir below rest ihBelow ihRest =>
    intro before above h
    rw [placedLines, List.mem_cons, List.mem_append] at h
    rcases h with rfl | h | h
    · simp
    · have hlt := ihBelow h
      rw [List.length_append] at hlt
      exact Nat.lt_of_le_of_lt (Nat.le_add_right _ _) hlt
    · exact ihRest h

/-- The lines that are drawn down to a depth are the lines that are drawn, without those for places that lie deeper. -/
theorem placedLines_cutOff (row : List Shown) : ∀ depth before above,
    placedLines before above (cutOff depth row) =
      (placedLines before above row).filter fun p => p.place.length ≤ above.length + depth := by
  induction row using row_induction with
  | nil =>
    intro depth before above
    rw [cutOff_nil, placedLines, List.filter_nil]
  | entry name isDir below rest ihBelow ihRest =>
    intro depth before above
    cases depth with
    | zero =>
      rw [cutOff, placedLines, eq_comm, List.filter_eq_nil_iff]
      intro p hp
      simpa using length_lt_of_mem_placedLines _ hp
    | succ depth =>
      have hlast : (cutOff (depth + 1) rest).isEmpty = rest.isEmpty := by
        rw [cutOff_succ, List.isEmpty_map]
      have hdepth : (above ++ [name]).length + depth = above.length + (depth + 1) := by
        rw [List.length_append, List.length_singleton]
        omega
      have hkept : (above ++ [name]).length ≤ above.length + (depth + 1) := by
        rw [← hdepth]
        exact Nat.le_add_right _ _
      rw [cutOff, placedLines, hlast, ihBelow, ihRest, hdepth, placedLines, List.filter_cons, if_pos (decide_eq_true hkept),
        List.filter_append]

/-! ## What is seen in a file system -/

variable {fs : FileSystem} {ignored : List String}

/-- The names in a directory are seen when its path can be listed and each of them can be looked up. -/
theorem exists_visibleNames_iff {path : Path} : (∃ names, visibleNames fs ignored path = .ok names) ↔
    '\x00' ∉ path.text.toList ∧
      ∀ name ∈ (fs.directoryAt path).entries.map (·.1), name ∉ ignored → fs.CanLookUp (path.child name) := by
  simp only [visibleNames_eq_ok]
  constructor
  · rintro ⟨-, hnul, isDir, hdir, rfl⟩
    exact ⟨hnul, fun name hentry hvisible => FileSystem.exists_leadsTo_iff.1 ⟨_, hdir name hentry hvisible⟩⟩
  · rintro ⟨hnul, hlook⟩
    have hall : ∀ name ∈ (fs.directoryAt path).entries.map (·.1), name ∉ ignored →
        ∃ isDir, fs.isDir? (path.child name) = .ok isDir :=
      fun name hentry hvisible => FileSystem.exists_leadsTo_iff.2 (hlook name hentry hvisible)
    choose! isDir hdir using hall
    exact ⟨_, hnul, isDir, hdir, rfl⟩

/-- The names that are seen in a directory are what is listed there, put in order. -/
theorem visibleNames_of_perm {path : Path} {listed names : List (String × Bool)} (hnul : '\x00' ∉ path.text.toList)
    (h : (((fs.directoryAt path).entries.map (·.1)).filter (· ∉ ignored)).mapM
      (fun name => (fs.isDir? (path.child name)).map fun isDir => (name, isDir)) = .ok listed)
    (hperm : listed.Perm names) (hsorted : names.Pairwise fun a b => le a b) : visibleNames fs ignored path = .ok names := by
  rw [visibleNames, if_neg (by simpa using hnul)]
  dsimp only
  rw [h]
  exact congrArg Except.ok ((mergeSort_le_eq_of_perm hperm).trans (List.mergeSort_of_pairwise hsorted))

/-- The entry of a name that is seen, with what is seen below it when it is or leads to a directory. -/
def Shown.ofName (below : String → List Shown) (seen : String × Bool) : Shown :=
  .entry seen.1 seen.2 (if seen.2 then below seen.1 else [])

theorem mem_map_ofName {names : List (String × Bool)} {below : String → List Shown} {name : String} {isDir : Bool}
    {row : List Shown} : Shown.entry name isDir row ∈ names.map (Shown.ofName below) ↔
      (name, isDir) ∈ names ∧ row = if isDir then below name else [] := by
  rw [List.mem_map]
  constructor
  · rintro ⟨seen, hseen, heq⟩
    obtain ⟨rfl, rfl, rfl⟩ := (Shown.entry.injEq ..).mp heq
    exact ⟨hseen, rfl⟩
  · rintro ⟨hseen, rfl⟩
    exact ⟨_, hseen, rfl⟩

/-- What is seen below a directory, entry by entry: with what is seen below each that is or leads to a directory. -/
theorem shownBelow_succ_eq_ok {depth : Nat} {path : Path} {row : List Shown} :
    shownBelow fs ignored (depth + 1) path = .ok row ↔ ∃ (names : List (String × Bool)) (below : String → List Shown),
      visibleNames fs ignored path = .ok names ∧
        (∀ name, (name, true) ∈ names → shownBelow fs ignored depth (path.child name) = .ok (below name)) ∧
          row = names.map (.ofName below) := by
  rw [shownBelow_succ]
  constructor
  · intro h
    cases hv : visibleNames fs ignored path with
    | error e => rw [hv] at h; nomatch h
    | ok names =>
      rw [hv] at h
      obtain ⟨g, hg, rfl⟩ := mapM_eq_ok.1 h
      have hall : ∀ name, (name, true) ∈ names → ∃ row, shownBelow fs ignored depth (path.child name) = .ok row := by
        intro name hname
        have hn := hg (name, true) hname
        rw [if_pos rfl] at hn
        cases hrow : shownBelow fs ignored depth (path.child name) with
        | error e => rw [hrow] at hn; nomatch hn
        | ok row => exact ⟨row, rfl⟩
      choose! below hbelow using hall
      refine ⟨names, below, rfl, hbelow, List.map_congr_left fun seen hseen => ?_⟩
      obtain ⟨name, isDir⟩ := seen
      have hn := hg _ hseen
      cases isDir with
      | false => exact (Except.ok.inj hn).symm
      | true =>
        rw [if_pos rfl, hbelow name hseen] at hn
        exact (Except.ok.inj hn).symm
  · rintro ⟨names, below, hv, hbelow, rfl⟩
    rw [hv]
    refine mapM_eq_ok.2 ⟨_, fun seen hseen => ?_, rfl⟩
    obtain ⟨name, isDir⟩ := seen
    cases isDir with
    | false => rfl
    | true =>
      rw [if_pos rfl, hbelow name hseen]
      rfl

/-- What is seen down to a depth is what is seen further down, cut off there. -/
theorem shownBelow_cutOff {depth : Nat} : ∀ {depth' : Nat} {path : Path} {row : List Shown}, depth ≤ depth' →
    shownBelow fs ignored depth' path = .ok row → shownBelow fs ignored depth path = .ok (cutOff depth row) := by
  induction depth with
  | zero =>
    intro depth' path row _ _
    rw [shownBelow, cutOff]
  | succ depth ih =>
    intro depth' path row hle h
    obtain ⟨deeper, rfl⟩ : ∃ deeper, depth' = deeper + 1 := ⟨depth' - 1, by omega⟩
    obtain ⟨names, below, hv, hbelow, rfl⟩ := shownBelow_succ_eq_ok.1 h
    refine shownBelow_succ_eq_ok.2 ⟨names, fun name => cutOff depth (below name), hv, fun name hname => ?_, ?_⟩
    · exact ih (Nat.le_of_succ_le_succ hle) (hbelow name hname)
    · rw [cutOff_succ, List.map_map]
      refine List.map_congr_left fun seen _ => ?_
      obtain ⟨name, isDir⟩ := seen
      cases isDir <;> simp [Shown.ofName, Shown.cutOffBelow]

/-- A snapshot of the directory at a path can be drawn down to a depth: the path can be listed when it has to be, and what is listed
on the way can be looked up. -/
def CanDrawBelow (fs : FileSystem) (ignored : List String) (depth : Nat) (path : Path) : Prop :=
  (depth ≠ 0 → '\x00' ∉ path.text.toList) ∧ CanShow fs ignored depth path

/-- What is listed in a well-formed directory has different names, and names that entries can have. -/
theorem entryNames_of_wellFormed {n : Node} (h : n.WellFormed) :
    (n.entries.map (·.1)).Nodup ∧ ∀ name ∈ n.entries.map (·.1), Files.IsEntryName name := by
  cases n with
  | dir es =>
    obtain ⟨hnodup, hentries⟩ := (Node.wellFormed_dir es).1 h
    exact ⟨hnodup, List.forall_mem_map.2 fun e he => (hentries e he).1⟩
  | file _ => exact ⟨List.nodup_nil, by simp [Node.entries]⟩
  | link _ => exact ⟨List.nodup_nil, by simp [Node.entries]⟩

/-- The path of an entry holds no null character when the path of its directory holds none. -/
theorem nul_not_mem_child (hw : fs.WellFormed) {path : Path} (hnul : '\x00' ∉ path.text.toList) {name : String}
    (h : name ∈ (fs.directoryAt path).entries.map (·.1)) : '\x00' ∉ (path.child name).text.toList := by
  have hname := ((entryNames_of_wellFormed (hw.directoryAt path)).2 name h).2.2.2.2.1
  rw [Path.nul_not_mem_text] at hnul ⊢
  exact List.forall_mem_append.2 ⟨hnul, List.forall_mem_singleton.2 hname⟩

/-- Something is seen below a directory exactly when it can be drawn. -/
theorem exists_shownBelow_iff (hw : fs.WellFormed) (depth : Nat) : ∀ path : Path,
    (∃ row, shownBelow fs ignored depth path = .ok row) ↔ CanDrawBelow fs ignored depth path := by
  induction depth with
  | zero =>
    intro path
    exact ⟨fun _ => ⟨fun hne => absurd rfl hne, trivial⟩, fun _ => ⟨[], by rw [shownBelow]⟩⟩
  | succ depth ih =>
    intro path
    constructor
    · rintro ⟨row, h⟩
      obtain ⟨names, below, hv, hbelow, -⟩ := shownBelow_succ_eq_ok.1 h
      obtain ⟨hnul, hlook⟩ := exists_visibleNames_iff.1 ⟨names, hv⟩
      refine ⟨fun _ => hnul, fun name hentry hvisible => ⟨hlook name hentry hvisible, fun hdir => ?_⟩⟩
      exact ((ih _).1 ⟨_, hbelow name ((mem_visibleNames_iff hv).2 ⟨hentry, hvisible, hdir⟩)⟩).2
    · rintro ⟨hnul, hshow⟩
      have hnul := hnul (Nat.succ_ne_zero depth)
      obtain ⟨names, hv⟩ := exists_visibleNames_iff.2 ⟨hnul, fun name hentry hvisible => (hshow name hentry hvisible).1⟩
      have hall : ∀ name, (name, true) ∈ names → ∃ row, shownBelow fs ignored depth (path.child name) = .ok row := by
        intro name hname
        obtain ⟨hentry, hvisible, hdir⟩ := (mem_visibleNames_iff hv).1 hname
        exact (ih _).2 ⟨fun _ => nul_not_mem_child hw hnul hentry, (hshow name hentry hvisible).2 hdir⟩
      choose! below hbelow using hall
      exact ⟨_, shownBelow_succ_eq_ok.2 ⟨names, below, hv, hbelow, rfl⟩⟩

/-! ## What a line is drawn for -/

/-- The margins below entries one in another, given for each of them, the outermost first, whether it is the last of its row. -/
def margins (areLast : List Bool) : String := String.join (areLast.map margin)

theorem margins_concat (areLast : List Bool) (isLast : Bool) :
    margins (areLast ++ [isLast]) = margins areLast ++ margin isLast := by
  simp [margins, String.join, List.foldl_append]

/-- A line is drawn for the entry at a place below the directory at a path. -/
structure IsDrawn (fs : FileSystem) (ignored : List String) (path : Path) (p : PlacedLine) : Prop where
  /-- The place is that of an entry of the directory it lies in. The line has a margin for each directory on the way, a connector,
  and the name, with a slash when the entry is or leads to a directory. -/
  entry : ∃ above name isDir areLast isLast, p.place = above ++ [name] ∧
    name ∈ (fs.directoryAt (path.below above)).entries.map (·.1) ∧ fs.isDir? (path.below p.place) = .ok isDir ∧
      areLast.length = above.length ∧ p.line = margins areLast ++ connector isLast ++ label name isDir
  /-- No name that leads there is ignored. -/
  visible : ∀ x ∈ p.place, x ∉ ignored

/-- The lines that are drawn for what is seen below a directory are drawn for entries at places below it, none of them ignored. -/
theorem isDrawn_of_mem_placedLines {path : Path} {p : PlacedLine} {depth : Nat} : ∀ {above areLast row},
    areLast.length = above.length → (∀ x ∈ above, x ∉ ignored) →
      shownBelow fs ignored depth (path.below above) = .ok row → p ∈ placedLines (margins areLast) above row →
        IsDrawn fs ignored path p := by
  induction depth with
  | zero =>
    intro above areLast row _ _ h hp
    rw [shownBelow] at h
    cases h
    rw [placedLines] at hp
    exact absurd hp List.not_mem_nil
  | succ depth ih =>
    intro above areLast row hlength habove h hp
    obtain ⟨names, below, hv, hbelow, rfl⟩ := shownBelow_succ_eq_ok.1 h
    obtain ⟨name, isDir, seen, isLast, hmem, hp⟩ := exists_of_mem_placedLines hp
    obtain ⟨hshown, rfl⟩ := mem_map_ofName.1 hmem
    obtain ⟨hlisted, hvisible, hdir⟩ := (mem_visibleNames_iff hv).1 hshown
    rw [Path.below_child] at hdir
    have hplace : ∀ x ∈ above ++ [name], x ∉ ignored := List.forall_mem_append.2 ⟨habove, List.forall_mem_singleton.2 hvisible⟩
    rcases hp with rfl | hp
    · exact ⟨⟨above, name, isDir, areLast, isLast, rfl, hlisted, hdir, hlength, rfl⟩, hplace⟩
    · cases isDir with
      | false =>
        rw [if_neg (by simp), placedLines] at hp
        exact absurd hp List.not_mem_nil
      | true =>
        have hseen := hbelow name hshown
        rw [Path.below_child] at hseen
        rw [if_pos rfl, ← margins_concat] at hp
        exact ih (by rw [List.length_append, List.length_append, hlength]; rfl) hplace hseen hp

theorem lines_of_shownBelow {depth : Nat} {path : Path} {row : List Shown} (h : shownBelow fs ignored depth path = .ok row) :
    lines fs ignored depth path = .ok (title path :: linesBelow "" row) := by
  rw [lines, h]
  rfl

/-- The lines of a snapshot are drawn when what it shows can be seen. -/
theorem exists_lines_iff (hw : fs.WellFormed) {depth : Nat} {path : Path} :
    (∃ drawn, lines fs ignored depth path = .ok drawn) ↔ CanDrawBelow fs ignored depth path := by
  rw [← exists_shownBelow_iff hw, lines]
  cases shownBelow fs ignored depth path with
  | ok row => exact iff_of_true ⟨_, rfl⟩ ⟨row, rfl⟩
  | error e =>
    constructor
    · rintro ⟨_, h⟩
      cases h
    · rintro ⟨_, h⟩
      cases h

/-- A snapshot is drawn exactly when what is listed can be looked up. Its lines are then drawn for entries at places below the
directory that is shown, along names none of which is ignored, and a snapshot that ends sooner is drawn as well and has the same
lines in the same order, without those for places that lie deeper. -/
theorem lines_truncated (hw : fs.WellFormed) (ignored : List String) (path : Path) {depth depth' : Nat} (hdepth : depth ≤ depth') :
    ((∃ drawn, lines fs ignored depth' path = .ok drawn) ↔ CanDrawBelow fs ignored depth' path) ∧
      ∀ row, shownBelow fs ignored depth' path = .ok row →
        lines fs ignored depth' path = .ok (title path :: (placedLines "" [] row).map (·.line)) ∧
          lines fs ignored depth path =
            .ok (title path :: ((placedLines "" [] row).filter fun p => p.place.length ≤ depth).map (·.line)) ∧
          ∀ p ∈ placedLines "" [] row, IsDrawn fs ignored path p := by
  refine ⟨exists_lines_iff hw, fun row h => ⟨?_, ?_, fun p hp => ?_⟩⟩
  · rw [lines_of_shownBelow h, map_line_placedLines]
  · have hcut := placedLines_cutOff row depth "" []
    rw [List.length_nil, Nat.zero_add] at hcut
    rw [lines_of_shownBelow (shownBelow_cutOff hdepth h), ← map_line_placedLines _ "" [], hcut]
  · have hroot : shownBelow fs ignored depth' (path.below []) = .ok row := by rw [Path.below_nil, h]
    have hlength : ([] : List Bool).length = ([] : List String).length := rfl
    exact isDrawn_of_mem_placedLines hlength (by simp) hroot hp

namespace Snapshots

/-- A directory with a link back to itself, a directory of dependencies and a file. -/
def loopTree : FileSystem where
  entries := [("w", .dir [("loop", .link "."), ("node_modules", .dir [("lib", .dir [])]), ("x", .file [])])]

/-- What is seen there, the dependencies apart, once round the circle. -/
def loopRow : List Shown :=
  [.entry "loop" true [.entry "loop" true [], .entry "x" false []], .entry "x" false []]

theorem loopTree_wellFormed : loopTree.WellFormed := by decide

theorem placedLines_loopRow : placedLines "" [] loopRow =
    [⟨["loop"], "├── loop/"⟩, ⟨["loop", "loop"], "│   ├── loop/"⟩, ⟨["loop", "x"], "│   └── x"⟩, ⟨["x"], "└── x"⟩] := by
  simp [loopRow, placedLines, connector, margin, label]

/-- What is seen where the names of the circle are seen, and seen again in it. -/
theorem shownBelow_loopRow {fs : FileSystem}
    (h : visibleNames fs ["node_modules"] (.absolute ["w"]) = .ok [("loop", true), ("x", false)])
    (h' : visibleNames fs ["node_modules"] (.absolute ["w", "loop"]) = .ok [("loop", true), ("x", false)]) :
    shownBelow fs ["node_modules"] 2 (.absolute ["w"]) = .ok loopRow := by
  refine shownBelow_succ_eq_ok.2 ⟨_, fun _ => [.entry "loop" true [], .entry "x" false []], h, fun name hname => ?_, rfl⟩
  obtain rfl : name = "loop" := by simpa using hname
  exact shownBelow_succ_eq_ok.2 ⟨_, fun _ => [], h', fun _ _ => by rw [shownBelow], rfl⟩

theorem shownBelow_loopTree : shownBelow loopTree ["node_modules"] 2 (.absolute ["w"]) = .ok loopRow :=
  shownBelow_loopRow
    (visibleNames_of_perm (by decide) (by decide +kernel) (List.Perm.refl _) (by decide))
    (visibleNames_of_perm (by decide) (by decide +kernel) (List.Perm.refl _) (by decide))

/-- A directory with a link of a given target. -/
def linkTree (target : String) : FileSystem where
  entries := [("w", .dir [("x", .link target)])]

theorem linkTree_wellFormed {target : String} (hne : target ≠ "") (hnul : '\x00' ∉ target.toList) :
    (linkTree target).WellFormed := by
  have hw : Files.IsEntryName "w" := by decide
  have hx : Files.IsEntryName "x" := by decide
  refine (Node.wellFormed_dir _).2 ⟨by simp [linkTree], List.forall_mem_singleton.2 ⟨hw, (Node.wellFormed_dir _).2 ⟨by simp, ?_⟩⟩⟩
  exact List.forall_mem_singleton.2 ⟨hx, hne, hnul⟩

theorem longTree_wellFormed : (linkTree Isolation.longName).WellFormed :=
  linkTree_wellFormed Isolation.longName_isPart.1.1 (Isolation.not_mem_longName (by decide))

/-- The link is followed to the one name of its target, which may not be walked. -/
theorem stat?_linkTree : (linkTree Isolation.longName).stat? (.absolute ["w", "x"]) = .error .nameTooLong := by
  have hroot : (linkTree Isolation.longName).at? [] = some (.dir (linkTree Isolation.longName).entries) := rfl
  have hdir : (linkTree Isolation.longName).at? ["w"] = some (.dir [("x", .link Isolation.longName)]) := rfl
  obtain ⟨⟨hne, hdot, hslash⟩, hup⟩ := Isolation.longName_isPart
  have hrelative : Files.targetIsAbsolute Isolation.longName = false := by
    rw [Files.targetIsAbsolute, Isolation.toList_longName]
    decide
  have hnames : Files.targetNames Isolation.longName = [Isolation.longName] := by
    have hlast : Isolation.longName.toList.getLast? ≠ some '/' := fun h => hslash (List.mem_of_getLast? h)
    have hne : Isolation.longName.toList ≠ [] := fun h => hne (String.toList_eq_nil_iff.1 h)
    simp only [Files.targetNames, List.splitOn_eq_singleton hslash, hlast, if_false]
    rw [List.filter_cons_of_pos (by simpa using hne)]
    simp
  have hlong : Files.maxNameBytes < Isolation.longName.utf8ByteSize := by decide +kernel
  have hw : Files.IsEntryName "w" := by decide
  have hx : Files.IsEntryName "x" := by decide
  have hroute : (linkTree Isolation.longName).route (.absolute ["w", "x"]) = .error .nameTooLong := by
    rw [FileSystem.route, Path.absolute, FileSystem.walk_step hroot hw.isStep rfl rfl, List.nil_append, Files.maxLinks,
      FileSystem.walk_link hdir hx.isStep rfl (Or.inl rfl), Files.linkBase, hrelative, if_neg (by simp), hnames]
    simp [FileSystem.walk, FileSystem.walkNames, hdir, hlong, hdot, hup]
  rw [FileSystem.stat?, FileSystem.find?_eq_route, hroute, ite_self]
  rfl

/-- What the directory holds cannot be looked up. -/
theorem not_canShow_linkTree : ¬CanShow (linkTree Isolation.longName) [] 1 (.absolute ["w"]) := by
  intro h
  have hentry : "x" ∈ ((linkTree Isolation.longName).directoryAt (.absolute ["w"])).entries.map (·.1) := List.mem_singleton_self _
  obtain ⟨hlook, -⟩ := h "x" hentry (by simp)
  exact hlook.elim (by decide) fun hne => hne stat?_linkTree

/-- Whether a link leads to a directory cannot be told when its target is too long, and then nothing is drawn. -/
theorem lines_linkTree (drawn : List String) : lines (linkTree Isolation.longName) [] 1 (.absolute ["w"]) ≠ .ok drawn := by
  intro h
  exact not_canShow_linkTree ((exists_lines_iff longTree_wellFormed).1 ⟨drawn, h⟩).2

end Snapshots

/-- A snapshot that goes round a circle once more has the lines of the one before, and others between them. -/
theorem lines_truncated_loop :
    1 ≤ 2 ∧ Snapshots.loopTree.WellFormed ∧
      lines Snapshots.loopTree ["node_modules"] 2 (.absolute ["w"]) =
        .ok ["w/", "├── loop/", "│   ├── loop/", "│   └── x", "└── x"] ∧
      lines Snapshots.loopTree ["node_modules"] 1 (.absolute ["w"]) = .ok ["w/", "├── loop/", "└── x"] ∧
      CanDrawBelow Snapshots.loopTree ["node_modules"] 2 (.absolute ["w"]) := by
  obtain ⟨hcan, hlines⟩ := lines_truncated Snapshots.loopTree_wellFormed ["node_modules"] (.absolute ["w"])
    (show 1 ≤ 2 by decide)
  obtain ⟨hdeep, hshallow, -⟩ := hlines _ Snapshots.shownBelow_loopTree
  rw [Snapshots.placedLines_loopRow] at hdeep hshallow
  exact ⟨by decide, Snapshots.loopTree_wellFormed, hdeep, hshallow, hcan.1 ⟨_, hdeep⟩⟩

/-- A link whose target is too long ends a snapshot that comes to it: nothing is drawn, while the snapshot that ends sooner is. -/
theorem lines_not_truncated :
    (Snapshots.linkTree Isolation.longName).WellFormed ∧
      lines (Snapshots.linkTree Isolation.longName) [] 0 (.absolute ["w"]) = .ok ["w/"] ∧
      ∀ drawn, lines (Snapshots.linkTree Isolation.longName) [] 1 (.absolute ["w"]) ≠ .ok drawn :=
  ⟨Snapshots.longTree_wellFormed, rfl, Snapshots.lines_linkTree⟩

end WorkspaceLint.Snapshot
