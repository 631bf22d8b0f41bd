import WorkspaceLint.Proofs.Snapshots

/-!
# A snapshot determines what can be seen

What can be seen of a directory is a set: the places below it, down to a depth and along names that are not ignored, each with
whether it is or leads to a directory (`visibleTree`). Two snapshots have the same lines exactly when the same can be seen
(`lines_eq_iff`). On the way from a set to lines the order of the names decides, which is the same for every listing; on the way
back the margins do, and the names may hold whatever they are drawn with, a slash apart (`linesBelow_inj`).
-/

namespace WorkspaceLint.Snapshot

open Files (FileSystem Node)

/-! ## Reading a row back from its lines -/

/-- No name in a row, or further below, holds a slash. -/
def HasPlainNames : List Shown → Prop
  | [] => True
  | .entry name _ below :: rest => '/' ∉ name.toList ∧ HasPlainNames below ∧ HasPlainNames rest

theorem hasPlainNames_iff {row : List Shown} : HasPlainNames row ↔
    ∀ name isDir below, Shown.entry name isDir below ∈ row → '/' ∉ name.toList ∧ HasPlainNames below := by
  induction row with
  | nil =>
    rw [HasPlainNames]
    exact ⟨fun _ name isDir below h => (nomatch h), fun _ => trivial⟩
  | cons s rest ih =>
    obtain ⟨name, isDir, below⟩ := s
    rw [HasPlainNames, ih]
    constructor
    · rintro ⟨hname, hbelow, hrest⟩ name' isDir' below' h
      rcases List.mem_cons.1 h with h | h
      · cases h
        exact ⟨hname, hbelow⟩
      · exact hrest _ _ _ h
    · intro h
      obtain ⟨hname, hbelow⟩ := h _ _ _ List.mem_cons_self
      exact ⟨hname, hbelow, fun name' isDir' below' hmem => h _ _ _ (List.mem_cons_of_mem _ hmem)⟩

/-- A label tells the name, and whether the entry is or leads to a directory. -/
theorem label_inj {name name' : String} {isDir isDir' : Bool} (hplain : '/' ∉ name.toList) (hplain' : '/' ∉ name'.toList)
    (h : label name isDir = label name' isDir') : name = name' ∧ isDir = isDir' := by
  have hslash : ∀ s : String, '/' ∈ (s ++ "/").toList := fun s => by simp
  cases isDir <;> cases isDir'
  · exact ⟨by simpa [label] using h, rfl⟩
  · simp only [label, Bool.false_eq_true, if_false, if_true, String.append_empty] at h
    exact absurd (h ▸ hslash name') hplain
  · simp only [label, Bool.false_eq_true, if_false, if_true, String.append_empty] at h
    exact absurd (h.symm ▸ hslash name) hplain'
  · exact ⟨by simpa [label, String.append_left_inj] using h, rfl⟩

/-- What follows a connector can be told from it. -/
theorem connector_append_inj {isLast isLast' : Bool} {s s' : String} (h : connector isLast ++ s = connector isLast' ++ s') :
    isLast = isLast' ∧ s = s' := by
  have hchars := congrArg String.toList h
  cases isLast <;> cases isLast' <;> simp [connector] at hchars <;> exact ⟨rfl, String.toList_inj.1 hchars⟩

/-- No connector begins as a margin. -/
theorem connector_append_ne_margin_append (isLast isLast' : Bool) (s s' : String) :
    connector isLast ++ s ≠ margin isLast' ++ s' := by
  intro h
  have hchars := congrArg String.toList h
  cases isLast <;> cases isLast' <;> simp [connector, margin] at hchars

/-- Every line of a row begins with what stands before the row. -/
theorem exists_append_of_mem_linesBelow (row : List Shown) : ∀ {before line}, line ∈ linesBelow before row →
    ∃ s, line = before ++ s := by
  induction row using row_induction with
  | nil =>
    intro before line h
    rw [linesBelow] at h
    exact absurd h List.not_mem_nil
  | entry name isDir below rest ihBelow ihRest =>
    intro before line h
    rw [linesBelow_cons, List.mem_cons, List.mem_append] at h
    rcases h with rfl | h | h
    · exact ⟨_, String.append_assoc⟩
    · obtain ⟨s, rfl⟩ := ihBelow h
      exact ⟨_, String.append_assoc⟩
    · exact ihRest h

/-- A list falls apart in one way only into members with a property and a rest that begins with none. -/
theorem append_inj_of_head {α : Type} {P : α → Prop} : ∀ {as bs as' bs' : List α}, as ++ bs = as' ++ bs' →
    (∀ a ∈ as, P a) → (∀ a ∈ as', P a) → (∀ b ∈ bs.head?, ¬P b) → (∀ b ∈ bs'.head?, ¬P b) → as = as' ∧ bs = bs'
  | [], _, [], _, h, _, _, _, _ => ⟨rfl, h⟩
  | [], bs, a' :: as', bs', h, _, has', hbs, _ => by
    obtain rfl : bs = a' :: (as' ++ bs') := h
    exact absurd (has' a' List.mem_cons_self) (hbs a' rfl)
  | a :: as, bs, [], bs', h, has, _, _, hbs' => by
    obtain rfl : a :: (as ++ bs) = bs' := h
    exact absurd (has a List.mem_cons_self) (hbs' a rfl)
  | a :: as, bs, a' :: as', bs', h, has, has', hbs, hbs' => by
    obtain ⟨rfl, htail⟩ := List.cons.inj h
    obtain ⟨hasEq, hbsEq⟩ := append_inj_of_head htail (fun x hx => has x (List.mem_cons_of_mem _ hx))
      (fun x hx => has' x (List.mem_cons_of_mem _ hx)) hbs hbs'
    exact ⟨congrArg (a :: ·) hasEq, hbsEq⟩

/-- The first line of a row does not begin as the lines do that are drawn below an entry before it. -/
theorem not_margin_of_mem_head? {before line : String} {row : List Shown} (isLast : Bool)
    (h : line ∈ (linesBelow before row).head?) : ¬∃ s, line = before ++ margin isLast ++ s := by
  cases row with
  | nil =>
    rw [linesBelow, List.head?_nil] at h
    cases h
  | cons s rest =>
    obtain ⟨name, isDir, below⟩ := s
    rw [linesBelow_cons, List.head?_cons] at h
    cases h
    rintro ⟨s, hs⟩
    rw [String.append_assoc, String.append_assoc, String.append_right_inj] at hs
    exact connector_append_ne_margin_append _ _ _ _ hs

/-- The lines of a row determine the row, whatever stands in its names but a slash. -/
theorem linesBelow_inj (row : List Shown) : ∀ {before row'}, HasPlainNames row → HasPlainNames row' →
    linesBelow before row = linesBelow before row' → row = row' := by
  induction row using row_induction with
  | nil =>
    intro before row' _ _ h
    cases row' with
    | nil => rfl
    | cons s rest =>
      obtain ⟨name, isDir, below⟩ := s
      rw [linesBelow, linesBelow_cons] at h
      cases h
  | entry name isDir below rest ihBelow ihRest =>
    intro before row' hplain hplain' h
    cases row' with
    | nil =>
      rw [linesBelow, linesBelow_cons] at h
      cases h
    | cons s rest' =>
      obtain ⟨name', isDir', below'⟩ := s
      rw [HasPlainNames] at hplain hplain'
      obtain ⟨hname, hbelow, hrest⟩ := hplain
      obtain ⟨hname', hbelow', hrest'⟩ := hplain'
      rw [linesBelow_cons, linesBelow_cons] at h
      obtain ⟨hhead, htail⟩ := List.cons.inj h
      rw [String.append_assoc, String.append_assoc, String.append_right_inj] at hhead
      obtain ⟨hlast, hlabel⟩ := connector_append_inj hhead
      obtain ⟨rfl, rfl⟩ := label_inj hname hname' hlabel
      rw [← hlast] at htail
      obtain ⟨hlinesBelow, hlinesRest⟩ := append_inj_of_head htail (fun _ => exists_append_of_mem_linesBelow below)
        (fun _ => exists_append_of_mem_linesBelow below') (fun _ => not_margin_of_mem_head? _)
        fun _ => not_margin_of_mem_head? _
      rw [ihBelow hbelow hbelow' hlinesBelow, ihRest hrest hrest' hlinesRest]

/-! ## What can be seen -/

/-- A place below the directory at a path that can be seen down to a depth: every name on the way there is listed where it stands
and is not ignored. -/
structure IsVisible (fs : FileSystem) (ignored : List String) (depth : Nat) (path : Path) (place : List String) : Prop where
  /-- A place is not the directory itself. -/
  ne_nil : place ≠ []
  /-- It lies no deeper than the depth. -/
  length_le : place.length ≤ depth
  /-- Every name is that of an entry of the directory before it. -/
  listed : ∀ above name below, place = above ++ name :: below → name ∈ (fs.directoryAt (path.below above)).entries.map (·.1)
  /-- No name is ignored. -/
  not_ignored : ∀ name ∈ place, name ∉ ignored

/-- What can be seen of the directory at a path down to a depth: the places below it, each with whether it is or leads to a
directory. -/
def visibleTree (fs : FileSystem) (ignored : List String) (depth : Nat) (path : Path) : Set (List String × Bool) :=
  {seen | IsVisible fs ignored depth path seen.1 ∧ (seen.2 = true ↔ fs.isDir? (path.below seen.1) = .ok true)}

variable {fs fs' : FileSystem} {ignored : List String} {depth : Nat} {path path' : Path}

theorem mem_visibleTree {place : List String} {isDir : Bool} : (place, isDir) ∈ visibleTree fs ignored depth path ↔
    IsVisible fs ignored depth path place ∧ (isDir = true ↔ fs.isDir? (path.below place) = .ok true) :=
  Iff.rfl

theorem not_isVisible_zero {place : List String} : ¬IsVisible fs ignored 0 path place := fun h =>
  h.ne_nil (List.eq_nil_of_length_eq_zero (Nat.le_zero.1 h.length_le))

/-- A place is that of an entry, or lies below one. -/
theorem isVisible_cons {name : String} {place : List String} : IsVisible fs ignored (depth + 1) path (name :: place) ↔
    name ∈ (fs.directoryAt path).entries.map (·.1) ∧ name ∉ ignored ∧
      (place = [] ∨ IsVisible fs ignored depth (path.child name) place) := by
  constructor
  · intro h
    refine ⟨?_, h.not_ignored name List.mem_cons_self, or_iff_not_imp_left.2 fun hne => ?_⟩
    · have hlisted := h.listed [] name place rfl
      rwa [Path.below_nil] at hlisted
    · refine ⟨hne, Nat.le_of_succ_le_succ h.length_le, fun above x below hplace => ?_,
        fun x hx => h.not_ignored x (List.mem_cons_of_mem _ hx)⟩
      rw [Path.child_below]
      exact h.listed (name :: above) x below (by rw [hplace, List.cons_append])
  · rintro ⟨hentry, hvisible, hplace⟩
    have hbelow : ∀ above x below, name :: place = above ++ x :: below →
        x ∈ (fs.directoryAt (path.below above)).entries.map (·.1) := by
      intro above x below heq
      cases above with
      | nil =>
        obtain ⟨rfl, -⟩ := List.cons.inj heq
        rwa [Path.below_nil]
      | cons y above =>
        obtain ⟨rfl, htail⟩ := List.cons.inj heq
        rcases hplace with rfl | hplace
        · simp at htail
        · rw [← Path.child_below]
          exact hplace.listed above x below htail
    refine ⟨List.cons_ne_nil _ _, ?_, hbelow, List.forall_mem_cons.2 ⟨hvisible, ?_⟩⟩
    · rcases hplace with rfl | hplace
      · simp
      · exact Nat.succ_le_succ hplace.length_le
    · rcases hplace with rfl | hplace
      · simp
      · exact hplace.not_ignored

/-- Where something can be seen there is a directory. -/
theorem IsVisible.isDir? (hw : fs.WellFormed) {place : List String} (h : IsVisible fs ignored depth path place) :
    fs.isDir? path = .ok true := by
  obtain ⟨name, below, rfl⟩ := List.exists_cons_of_ne_nil h.ne_nil
  have hlisted := h.listed [] name below rfl
  rw [Path.below_nil, FileSystem.directoryAt] at hlisted
  split at hlisted
  · rename_i es hes
    exact FileSystem.isDir?_eq_true.2 ⟨FileSystem.nul_not_mem_of_stat? hw hes, es, hes⟩
  · exact absurd hlisted List.not_mem_nil

/-- What can be seen in a directory is told by the names that are seen there, and by what can be seen below the directories among
them. -/
theorem mem_visibleTree_succ (hw : fs.WellFormed) {names : List (String × Bool)} (h : visibleNames fs ignored path = .ok names)
    {name : String} {place : List String} {isDir : Bool} :
    (name :: place, isDir) ∈ visibleTree fs ignored (depth + 1) path ↔
      place = [] ∧ (name, isDir) ∈ names ∨
        (name, true) ∈ names ∧ (place, isDir) ∈ visibleTree fs ignored depth (path.child name) := by
  rw [mem_visibleTree, mem_visibleTree, isVisible_cons, mem_visibleNames_iff h, mem_visibleNames_iff h, Path.child_below]
  constructor
  · rintro ⟨⟨hentry, hvisible, rfl | hplace⟩, hdir⟩
    · obtain ⟨-, flag, hflag, -⟩ := visibleNames_eq_ok.1 h
      have hname := hflag name hentry hvisible
      rw [← Path.child_eq_below, hname, Except.ok.injEq, Bool.coe_iff_coe] at hdir
      exact Or.inl ⟨rfl, hentry, hvisible, hdir ▸ hname⟩
    · exact Or.inr ⟨⟨hentry, hvisible, hplace.isDir? hw⟩, hplace, hdir⟩
  · rintro (⟨rfl, hentry, hvisible, hdir⟩ | ⟨⟨hentry, hvisible, -⟩, hplace, hdir⟩)
    · exact ⟨⟨hentry, hvisible, Or.inl rfl⟩, by rw [← Path.child_eq_below, hdir, Except.ok.injEq]⟩
    · exact ⟨⟨hentry, hvisible, Or.inr hplace⟩, hdir⟩

/-- The same can be seen of two directories when the names that are seen there are the same, and the same can be seen below the
directories among them. -/
theorem visibleTree_succ_eq_iff (hw : fs.WellFormed) (hw' : fs'.WellFormed) {names names' : List (String × Bool)}
    (h : visibleNames fs ignored path = .ok names) (h' : visibleNames fs' ignored path' = .ok names') :
    visibleTree fs ignored (depth + 1) path = visibleTree fs' ignored (depth + 1) path' ↔
      (∀ shown, shown ∈ names ↔ shown ∈ names') ∧ ∀ name, (name, true) ∈ names →
        visibleTree fs ignored depth (path.child name) = visibleTree fs' ignored depth (path'.child name) := by
  have hnil : ∀ {fs : FileSystem} {path : Path} {isDir : Bool} {depth : Nat}, ([], isDir) ∉ visibleTree fs ignored depth path :=
    fun hmem => hmem.1.ne_nil rfl
  constructor
  · intro heq
    have hnames : ∀ shown, shown ∈ names ↔ shown ∈ names' := by
      rintro ⟨name, isDir⟩
      have hmem := Set.ext_iff.1 heq ([name], isDir)
      rw [mem_visibleTree_succ hw h, mem_visibleTree_succ hw' h'] at hmem
      simpa [hnil] using hmem
    refine ⟨hnames, fun name hname => Set.ext fun ⟨place, isDir⟩ => ?_⟩
    cases place with
    | nil => exact iff_of_false hnil hnil
    | cons x place =>
      have hmem := Set.ext_iff.1 heq (name :: x :: place, isDir)
      rw [mem_visibleTree_succ hw h, mem_visibleTree_succ hw' h'] at hmem
      simpa [hname, (hnames _).1 hname] using hmem
  · rintro ⟨hnames, hbelow⟩
    refine Set.ext fun ⟨place, isDir⟩ => ?_
    cases place with
    | nil => exact iff_of_false hnil hnil
    | cons name place =>
      rw [mem_visibleTree_succ hw h, mem_visibleTree_succ hw' h', hnames, ← hnames (name, true)]
      refine or_congr_right (and_congr_right fun hname => ?_)
      rw [hbelow name hname]

/-! ## What is drawn and what can be seen -/

/-- No name is seen twice in a directory. -/
theorem nodup_visibleNames (hw : fs.WellFormed) {names : List (String × Bool)} (h : visibleNames fs ignored path = .ok names) :
    names.Nodup := by
  obtain ⟨-, flag, -, rfl⟩ := visibleNames_eq_ok.1 h
  have hentries := (entryNames_of_wellFormed (hw.directoryAt path)).1
  rw [(List.mergeSort_perm _ _).nodup_iff]
  exact (hentries.filter _).map fun _ _ heq => congrArg Prod.fst heq

/-- The names that are seen are in one order, however they are listed. -/
theorem visibleNames_eq_iff (hw : fs.WellFormed) (hw' : fs'.WellFormed) {names names' : List (String × Bool)}
    (h : visibleNames fs ignored path = .ok names) (h' : visibleNames fs' ignored path' = .ok names') :
    names = names' ↔ ∀ shown, shown ∈ names ↔ shown ∈ names' := by
  refine ⟨fun heq _ => by rw [heq], fun hmem => ?_⟩
  have hperm := (List.perm_ext_iff_of_nodup (nodup_visibleNames hw h) (nodup_visibleNames hw' h')).2 hmem
  obtain ⟨-, flag, -, rfl⟩ := visibleNames_eq_ok.1 h
  obtain ⟨-, flag', -, rfl⟩ := visibleNames_eq_ok.1 h'
  exact mergeSort_le_eq_of_perm ((List.mergeSort_perm _ _).symm.trans (hperm.trans (List.mergeSort_perm _ _)))

/-- The name of an entry, and whether it is or leads to a directory. -/
def Shown.seen : Shown → String × Bool
  | .entry name isDir _ => (name, isDir)

theorem map_seen_map_ofName (names : List (String × Bool)) (below : String → List Shown) :
    (names.map (Shown.ofName below)).map Shown.seen = names := by
  rw [List.map_map]
  exact List.map_id _

/-- Two rows are the same when their names are, and what is seen below the directories among them. -/
theorem map_ofName_inj {names names' : List (String × Bool)} {below below' : String → List Shown} :
    names.map (Shown.ofName below) = names'.map (Shown.ofName below') ↔
      names = names' ∧ ∀ name, (name, true) ∈ names → below name = below' name := by
  constructor
  · intro h
    have hnames : names = names' := by
      rw [← map_seen_map_ofName names below, h, map_seen_map_ofName]
    subst hnames
    refine ⟨rfl, fun name hname => ?_⟩
    have hentry := List.map_inj_left.1 h (name, true) hname
    simpa [Shown.ofName] using hentry
  · rintro ⟨rfl, hbelow⟩
    refine List.map_congr_left fun seen hseen => ?_
    obtain ⟨name, isDir⟩ := seen
    cases isDir with
    | false => rfl
    | true => simp [Shown.ofName, hbelow name hseen]

/-- The same is seen below two directories exactly when the same can be seen there. -/
theorem shownBelow_eq_iff (hw : fs.WellFormed) (hw' : fs'.WellFormed) : ∀ {depth : Nat} {path path' : Path}
    {row row' : List Shown}, shownBelow fs ignored depth path = .ok row → shownBelow fs' ignored depth path' = .ok row' →
      (row = row' ↔ visibleTree fs ignored depth path = visibleTree fs' ignored depth path') := by
  intro depth
  induction depth with
  | zero =>
    intro path path' row row' h h'
    rw [shownBelow] at h h'
    cases h
    cases h'
    exact iff_of_true rfl (Set.ext fun _ => iff_of_false (fun hm => not_isVisible_zero hm.1) fun hm => not_isVisible_zero hm.1)
  | succ depth ih =>
    intro path path' row row' h h'
    obtain ⟨names, below, hv, hbelow, rfl⟩ := shownBelow_succ_eq_ok.1 h
    obtain ⟨names', below', hv', hbelow', rfl⟩ := shownBelow_succ_eq_ok.1 h'
    rw [map_ofName_inj, visibleTree_succ_eq_iff hw hw' hv hv', visibleNames_eq_iff hw hw' hv hv']
    refine and_congr_right fun hnames => forall₂_congr fun name hname => ?_
    exact ih (hbelow name hname) (hbelow' name ((hnames _).1 hname))

/-- No name that is seen in a directory holds a slash. -/
theorem hasPlainNames_of_shownBelow (hw : fs.WellFormed) : ∀ {depth : Nat} {path : Path} {row : List Shown},
    shownBelow fs ignored depth path = .ok row → HasPlainNames row := by
  intro depth
  induction depth with
  | zero =>
    intro path row h
    rw [shownBelow] at h
    cases h
    rw [HasPlainNames]
    trivial
  | succ depth ih =>
    intro path row h
    obtain ⟨names, below, hv, hbelow, rfl⟩ := shownBelow_succ_eq_ok.1 h
    refine hasPlainNames_iff.2 fun name isDir seen hmem => ?_
    obtain ⟨hshown, rfl⟩ := mem_map_ofName.1 hmem
    refine ⟨((entryNames_of_wellFormed (hw.directoryAt path)).2 name (mem_visibleNames hv hshown).1).2.2.2.1, ?_⟩
    cases isDir with
    | false =>
      rw [if_neg (by simp), HasPlainNames]
      trivial
    | true => exact ih (hbelow name hshown)

/-- Snapshots of directories with the same title have the same lines exactly when the same can be seen of the directories, as far as
there are snapshots: what is listed can be looked up. The lines can be read back, since no other row of entries is drawn in the
same way, whatever its names are, as long as they hold no slash. -/
theorem lines_eq_iff (hw : fs.WellFormed) (hw' : fs'.WellFormed) (htitle : title path = title path')
    (hdraw : CanDrawBelow fs ignored depth path) (hdraw' : CanDrawBelow fs' ignored depth path') :
    ∃ drawn drawn', lines fs ignored depth path = .ok drawn ∧ lines fs' ignored depth path' = .ok drawn' ∧
      (drawn = drawn' ↔ visibleTree fs ignored depth path = visibleTree fs' ignored depth path') ∧
        ∃ row, shownBelow fs ignored depth path = .ok row ∧
          ∀ other, HasPlainNames other → title path :: linesBelow "" other = drawn → other = row := by
  obtain ⟨row, h⟩ := (exists_shownBelow_iff hw depth path).2 hdraw
  obtain ⟨row', h'⟩ := (exists_shownBelow_iff hw' depth path').2 hdraw'
  have hplain := hasPlainNames_of_shownBelow hw h
  have hplain' := hasPlainNames_of_shownBelow hw' h'
  refine ⟨_, _, lines_of_shownBelow h, lines_of_shownBelow h', ?_, row, h, fun other hother heq => ?_⟩
  · rw [← shownBelow_eq_iff hw hw' h h', htitle]
    exact ⟨fun heq => linesBelow_inj row hplain hplain' (List.cons.inj heq).2, fun heq => by rw [heq]⟩
  · exact linesBelow_inj other hother hplain (List.cons.inj heq).2

namespace Snapshots

/-- A directory that looks like a circle once round, listed in another order, with a link that leads nowhere for a file. -/
def unrolledTree : FileSystem where
  entries := [("w", .dir [("x", .link "gone"), ("loop", .dir [("x", .file []), ("loop", .dir [])])])]

theorem unrolledTree_wellFormed : unrolledTree.WellFormed := by decide

theorem shownBelow_unrolledTree : shownBelow unrolledTree ["node_modules"] 2 (.absolute ["w"]) = .ok loopRow :=
  shownBelow_loopRow
    (visibleNames_of_perm (by decide) (by decide +kernel) (List.Perm.swap ..) (by decide))
    (visibleNames_of_perm (by decide) (by decide +kernel) (List.Perm.swap ..) (by decide))

/-- A link that leads nowhere and one whose target is too long look the same: neither leads to a directory. -/
theorem visibleTree_linkTree : visibleTree (linkTree "gone") [] 1 (.absolute ["w"]) =
    visibleTree (linkTree Isolation.longName) [] 1 (.absolute ["w"]) := by
  have hgone : (linkTree "gone").isDir? (.absolute ["w", "x"]) ≠ .ok true := by decide +kernel
  have hlong : (linkTree Isolation.longName).isDir? (.absolute ["w", "x"]) ≠ .ok true := by
    intro h
    obtain ⟨-, es, hes⟩ := FileSystem.isDir?_eq_true.1 h
    rw [stat?_linkTree] at hes
    nomatch hes
  refine Set.ext fun ⟨place, isDir⟩ => ?_
  cases place with
  | nil => exact iff_of_false (fun h => h.1.ne_nil rfl) fun h => h.1.ne_nil rfl
  | cons name place =>
    have hlisted : ∀ target, ((linkTree target).directoryAt (.absolute ["w"])).entries.map (·.1) = ["x"] := fun _ => rfl
    have hvisible : ∀ target, IsVisible (linkTree target) [] 1 (.absolute ["w"]) (name :: place) ↔ name = "x" ∧ place = [] := by
      intro target
      rw [isVisible_cons, hlisted]
      simp [not_isVisible_zero]
    rw [mem_visibleTree, mem_visibleTree, hvisible, hvisible]
    refine and_congr_right ?_
    rintro ⟨rfl, rfl⟩
    exact iff_congr Iff.rfl (iff_of_false hgone hlong)

theorem shownBelow_linkTree : shownBelow (linkTree "gone") [] 1 (.absolute ["w"]) = .ok [.entry "x" false []] :=
  shownBelow_succ_eq_ok.2 ⟨[("x", false)], fun _ => [],
    visibleNames_of_perm (by decide) (by decide +kernel) (List.Perm.refl _) (by decide), fun _ _ => by rw [shownBelow], rfl⟩

end Snapshots

/-- A circle that is drawn once round has the lines of the directory that it looks like, so nothing else can be seen there. -/
theorem lines_eq_iff_loop :
    Snapshots.loopTree.WellFormed ∧ Snapshots.unrolledTree.WellFormed ∧
      CanDrawBelow Snapshots.loopTree ["node_modules"] 2 (.absolute ["w"]) ∧
      CanDrawBelow Snapshots.unrolledTree ["node_modules"] 2 (.absolute ["w"]) ∧
      lines Snapshots.loopTree ["node_modules"] 2 (.absolute ["w"]) =
        .ok ["w/", "├── loop/", "│   ├── loop/", "│   └── x", "└── x"] ∧
      lines Snapshots.unrolledTree ["node_modules"] 2 (.absolute ["w"]) =
        .ok ["w/", "├── loop/", "│   ├── loop/", "│   └── x", "└── x"] ∧
      visibleTree Snapshots.loopTree ["node_modules"] 2 (.absolute ["w"]) =
        visibleTree Snapshots.unrolledTree ["node_modules"] 2 (.absolute ["w"]) := by
  have hdraw := (exists_shownBelow_iff Snapshots.loopTree_wellFormed 2 _).1 ⟨_, Snapshots.shownBelow_loopTree⟩
  have hdraw' := (exists_shownBelow_iff Snapshots.unrolledTree_wellFormed 2 _).1 ⟨_, Snapshots.shownBelow_unrolledTree⟩
  obtain ⟨drawn, drawn', hdrawn, hdrawn', hiff, -⟩ :=
    lines_eq_iff Snapshots.loopTree_wellFormed Snapshots.unrolledTree_wellFormed rfl hdraw hdraw'
  have hlines := lines_of_shownBelow Snapshots.shownBelow_loopTree
  have hlines' := lines_of_shownBelow Snapshots.shownBelow_unrolledTree
  have hsame : drawn = drawn' := Except.ok.inj (hdrawn.symm.trans (hlines.trans (hlines'.symm.trans hdrawn')))
  rw [← map_line_placedLines _ "" [], Snapshots.placedLines_loopRow] at hlines hlines'
  exact ⟨Snapshots.loopTree_wellFormed, Snapshots.unrolledTree_wellFormed, hdraw, hdraw', hlines, hlines', hiff.1 hsame⟩

/-- Of two directories that look the same one is drawn and the other is not, when a link in it has a target that is too long. -/
theorem lines_not_determined :
    (Snapshots.linkTree "gone").WellFormed ∧ (Snapshots.linkTree Isolation.longName).WellFormed ∧
      visibleTree (Snapshots.linkTree "gone") [] 1 (.absolute ["w"]) =
        visibleTree (Snapshots.linkTree Isolation.longName) [] 1 (.absolute ["w"]) ∧
      lines (Snapshots.linkTree "gone") [] 1 (.absolute ["w"]) = .ok ["w/", "└── x"] ∧
      ∀ drawn, lines (Snapshots.linkTree Isolation.longName) [] 1 (.absolute ["w"]) ≠ .ok drawn :=
  ⟨Snapshots.linkTree_wellFormed (by decide) (by decide), Snapshots.longTree_wellFormed, Snapshots.visibleTree_linkTree,
    lines_of_shownBelow Snapshots.shownBelow_linkTree, Snapshots.lines_linkTree⟩

end WorkspaceLint.Snapshot
