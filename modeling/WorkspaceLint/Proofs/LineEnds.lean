import WorkspaceLint.Proofs.Isolation
import WorkspaceLint.Proofs.Manifests

/-!
# Line ends

Two file systems that hold the same but for the line ends of some texts. Text is read with every line end as one line feed, so
whatever reads text reads the same in both; and nothing in a run reads octets. A run is then the same in both, with its report and
with its log (`lint_lineEnds`).
-/

namespace WorkspaceLint

namespace Text

/-! ## Decoding with other line ends -/

/-- A line end that is no single line feed. -/
inductive LineEnd where
  /-- A carriage return and a line feed. -/
  | crlf
  /-- A carriage return. -/
  | cr

/-- The octets of a line end. -/
def LineEnd.octets : LineEnd → List UInt8
  | .crlf => [13, 10]
  | .cr => [13]

/-- The characters of a line end. -/
def LineEnd.chars : LineEnd → List Char
  | .crlf => ['\r', '\n']
  | .cr => ['\r']

/-- Octets with every line feed written as another line end. -/
def withLineEnds (e : LineEnd) (content : List UInt8) : List UInt8 := content.flatMap fun b => if b = 10 then e.octets else [b]

/-- Characters with every line feed written as another line end. -/
def charsWithLineEnds (e : LineEnd) (chars : List Char) : List Char :=
  chars.flatMap fun c => if c = '\n' then e.chars else [c]

theorem withLineEnds_cons_ne (e : LineEnd) {b : UInt8} (hb : b ≠ 10) (rest : List UInt8) :
    withLineEnds e (b :: rest) = b :: withLineEnds e rest := by
  rw [withLineEnds, List.flatMap_cons, if_neg hb]
  rfl

theorem charsWithLineEnds_cons_ne (e : LineEnd) {c : Char} (hc : c ≠ '\n') (rest : List Char) :
    charsWithLineEnds e (c :: rest) = c :: charsWithLineEnds e rest := by
  rw [charsWithLineEnds, List.flatMap_cons, if_neg hc]
  rfl

/-- What has been read of a sequence stands for a character past the ones of a single octet, whatever comes. -/
structure Utf8Pending.Fit (p : Utf8Pending) : Prop where
  /-- The next byte is no character by itself. -/
  low : 0x80 ≤ p.low
  /-- The next byte starts no sequence. -/
  high : p.high ≤ 0xBF
  /-- Some bits that count have been read, or are in the next byte. -/
  bits : 1 ≤ p.bits ∨ 0x90 ≤ p.low
  /-- Before the last byte so many have been read that the character is past the first ones. -/
  last : p.more = 0 → 2 ≤ p.bits

/-- A pending sequence goes on with its next byte. -/
theorem Utf8Pending.Fit.next {p : Utf8Pending} (h : p.Fit) {b : UInt8} (hb : p.low ≤ b.toNat ∧ b.toNat ≤ p.high) (more : Nat) :
    Utf8Pending.Fit { p with taken := p.taken + 1, bits := p.bits * 0x40 + b.toNat % 0x40, more, low := 0x80, high := 0xBF } := by
  obtain ⟨hlow, hhigh, hread, -⟩ := h
  have hbits : 2 ≤ p.bits * 0x40 + b.toNat % 0x40 := by
    rcases hread with hread | hread
    · omega
    · omega
  exact ⟨Nat.le_refl _, Nat.le_refl _, Or.inl (Nat.le_of_succ_le hbits), fun _ => hbits⟩

/-- A first byte is a character below 0x80, or starts a longer sequence or nothing, wherever it stands. -/
theorem Utf8Lead.of_cases (b : UInt8) :
    (b.toNat < 0x80 ∧ ∀ position, Utf8Lead.of position b = .whole (Char.ofNat b.toNat)) ∨
      (0x80 ≤ b.toNat ∧ ∃ p : Utf8Pending, p.Fit ∧ ∀ position, Utf8Lead.of position b = .part { p with position }) ∨
      ∀ position, Utf8Lead.of position b = .unfit := by
  simp only [Utf8Lead.of]
  by_cases h1 : b.toNat < 0x80
  · exact Or.inl ⟨h1, fun position => if_pos h1⟩
  simp only [if_neg h1]
  by_cases h2 : b.toNat < 0xC2
  · exact Or.inr (Or.inr fun position => if_pos h2)
  simp only [if_neg h2]
  by_cases h3 : b.toNat < 0xE0
  · refine Or.inr (Or.inl ⟨Nat.not_lt.1 h1, ⟨0, b, 1, b.toNat % 0x20, 0, 0x80, 0xBF⟩, ?_, fun position => if_pos h3⟩)
    have hbits : 2 ≤ b.toNat % 0x20 := by omega
    exact ⟨Nat.le_refl _, Nat.le_refl _, Or.inl (Nat.le_of_succ_le hbits), fun _ => hbits⟩
  simp only [if_neg h3]
  by_cases h4 : b.toNat < 0xF0
  · refine Or.inr (Or.inl ⟨Nat.not_lt.1 h1, ⟨0, b, 1, b.toNat % 0x10, 1, if b.toNat = 0xE0 then 0xA0 else 0x80,
      if b.toNat = 0xED then 0x9F else 0xBF⟩, ⟨?_, ?_, ?_, nofun⟩, fun position => if_pos h4⟩)
    · dsimp only
      split <;> omega
    · dsimp only
      split <;> omega
    · dsimp only
      split <;> omega
  simp only [if_neg h4]
  by_cases h5 : b.toNat < 0xF5
  · refine Or.inr (Or.inl ⟨Nat.not_lt.1 h1, ⟨0, b, 1, b.toNat % 0x08, 2, if b.toNat = 0xF0 then 0x90 else 0x80,
      if b.toNat = 0xF4 then 0x8F else 0xBF⟩, ⟨?_, ?_, ?_, nofun⟩, fun position => if_pos h5⟩)
    · dsimp only
      split <;> omega
    · dsimp only
      split <;> omega
    · dsimp only
      split <;> omega
  · exact Or.inr (Or.inr fun position => if_neg h5)

/-- A character that is not the null character has its own code point only. -/
theorem ofNat_ne {n : Nat} {c : Char} (hc : c.toNat ≠ 0) (hn : n ≠ c.toNat) : Char.ofNat n ≠ c := by
  rintro rfl
  by_cases hv : n.isValidChar
  · rw [Char.ofNat, dif_pos hv] at hn
    exact hn rfl
  · rw [Char.ofNat, dif_neg hv] at hc
    exact hc rfl

/-- A character in front of what succeeds. -/
theorem map_cons_eq_ok {x : Except Utf8Error (List Char)} {c : Char} {chars : List Char} (h : x.map (c :: ·) = .ok chars) :
    ∃ more, x = .ok more ∧ chars = c :: more := by
  cases x with
  | error fault => nomatch h
  | ok more =>
    cases h
    exact ⟨more, rfl, rfl⟩

/-- A line end is decoded as itself. -/
theorem decodeFrom_octets (e : LineEnd) (position : Nat) (bytes : List UInt8) :
    ∃ position', decodeFrom position none (e.octets ++ bytes) = (decodeFrom position' none bytes).map (e.chars ++ ·) := by
  cases e with
  | crlf =>
    refine ⟨position + 1 + 1, ?_⟩
    rw [LineEnd.octets, List.cons_append, List.cons_append, List.nil_append, decodeFrom, decodeFrom]
    cases decodeFrom (position + 1 + 1) none bytes <;> rfl
  | cr => exact ⟨position + 1, rfl⟩

/-- A sequence under way, if there is one, with its first byte at an offset. -/
def startingAt (start : Nat) (pending : Option Utf8Pending) : Option Utf8Pending := pending.map fun p => { p with position := start }

/-- A sequence under way starts somewhere. -/
theorem exists_startingAt (pending : Option Utf8Pending) : ∃ start, startingAt start pending = pending := by
  cases pending with
  | none => exact ⟨0, rfl⟩
  | some p => exact ⟨p.position, rfl⟩

/-- What one octet does after a sequence that may be under way, wherever both stand. -/
inductive OctetStep (pending : Option Utf8Pending) (b : UInt8) : Prop where
  /-- It is a line feed by itself. -/
  | lineFeed (hb : b = 10) (hnone : pending = none)
  /-- It ends a character that is in no line end. -/
  | ends (c : Char) (hb : b ≠ 10) (hnl : c ≠ '\n') (hcr : c ≠ '\r') (hstep : ∀ position start rest,
      decodeFrom position (startingAt start pending) (b :: rest) = (decodeFrom (position + 1) none rest).map (c :: ·))
  /-- It is one of the bytes of a longer sequence. -/
  | goesOn (p : Utf8Pending) (hb : b ≠ 10) (hp : p.Fit) (hstep : ∀ position start rest, ∃ start',
      decodeFrom position (startingAt start pending) (b :: rest) = decodeFrom (position + 1) (startingAt start' (some p)) rest)
  /-- It does not fit. -/
  | unfit (hstep : ∀ position rest, ∃ fault, decodeFrom position pending (b :: rest) = .error fault)

/-- An octet that is no carriage return and starts something. -/
theorem OctetStep.of_lead {b : UInt8} (hcr : b ≠ 13) : OctetStep none b := by
  obtain ⟨-, hlead⟩ | ⟨hbig, p, hp, hlead⟩ | hlead := Utf8Lead.of_cases b
  · by_cases hb : b = 10
    · exact .lineFeed hb rfl
    · refine .ends (Char.ofNat b.toNat) hb (ofNat_ne (by decide) fun he => hb (UInt8.toNat_inj.1 he))
        (ofNat_ne (by decide) fun he => hcr (UInt8.toNat_inj.1 he)) fun position start rest => ?_
      rw [startingAt, Option.map_none, decodeFrom, hlead]
  · refine .goesOn p (fun hb => absurd hbig (by rw [hb]; decide)) hp fun position start rest => ⟨position, ?_⟩
    rw [startingAt, Option.map_none, decodeFrom, hlead]
    rfl
  · refine .unfit fun position rest => ?_
    rw [decodeFrom, hlead]
    exact ⟨_, rfl⟩

/-- An octet after a sequence that is under way. -/
theorem OctetStep.of_pending {p : Utf8Pending} (hp : p.Fit) (b : UInt8) : OctetStep (some p) b := by
  by_cases hbounds : p.low ≤ b.toNat ∧ b.toNat ≤ p.high
  · have hb : b ≠ 10 := by
      rintro rfl
      exact absurd (Nat.le_trans hp.low hbounds.1) (by decide)
    cases hmore : p.more with
    | zero =>
      have hbits : 0x80 ≤ p.bits * 0x40 + b.toNat % 0x40 := by
        have := hp.last hmore
        omega
      have hne : ∀ {c : Char}, c.toNat ≠ 0 → c.toNat < 0x80 → Char.ofNat (p.bits * 0x40 + b.toNat % 0x40) ≠ c :=
        fun hc hsmall => ofNat_ne hc fun he => by omega
      refine .ends _ hb (hne (by decide) (by decide)) (hne (by decide) (by decide)) fun position start rest => ?_
      rw [startingAt, Option.map_some, decodeFrom, if_pos hbounds]
      simp only [hmore]
    | succ left =>
      refine .goesOn _ hb (hp.next hbounds left) fun position start rest => ⟨start, ?_⟩
      rw [startingAt, Option.map_some, decodeFrom, if_pos hbounds]
      simp only [hmore]
      rfl
  · refine .unfit fun position rest => ?_
    rw [decodeFrom, if_neg hbounds]
    exact ⟨_, rfl⟩

/-- An octet that is no carriage return does one of four things. -/
theorem OctetStep.of_ne {pending : Option Utf8Pending} {b : UInt8} (hfit : ∀ p ∈ pending, p.Fit) (hcr : b ≠ 13) :
    OctetStep pending b := by
  cases pending with
  | none => exact .of_lead hcr
  | some p => exact .of_pending (hfit p rfl) b

/-- Octets without carriage returns stand for characters without carriage returns, and with other line ends for the same
characters with those line ends, wherever they stand. -/
theorem decodeFrom_withLineEnds (e : LineEnd) {bytes : List UInt8} : ∀ {position : Nat} {pending : Option Utf8Pending}
    {chars : List Char}, (∀ p ∈ pending, p.Fit) → 13 ∉ bytes → decodeFrom position pending bytes = .ok chars →
      '\r' ∉ chars ∧ ∀ position' start,
        decodeFrom position' (startingAt start pending) (withLineEnds e bytes) = .ok (charsWithLineEnds e chars) := by
  induction bytes with
  | nil =>
    intro position pending chars _ _ h
    cases pending with
    | none =>
      cases h
      exact ⟨List.not_mem_nil, fun _ _ => rfl⟩
    | some p => cases h
  | cons b rest ih =>
    intro position pending chars hfit hcr h
    rw [List.mem_cons, not_or] at hcr
    obtain ⟨here, hhere⟩ := exists_startingAt pending
    cases OctetStep.of_ne hfit (Ne.symm hcr.1) with
    | lineFeed hb hnone =>
      subst hb hnone
      obtain ⟨more, hd, rfl⟩ := map_cons_eq_ok (h : (decodeFrom (position + 1) none rest).map ('\n' :: ·) = .ok chars)
      obtain ⟨hmore, hall⟩ := ih (by simp) hcr.2 hd
      refine ⟨List.not_mem_cons_of_ne_of_not_mem (by decide) hmore, fun position' start => ?_⟩
      obtain ⟨position'', hends⟩ := decodeFrom_octets e position' (withLineEnds e rest)
      have hrest : decodeFrom position'' none (withLineEnds e rest) = .ok (charsWithLineEnds e more) := hall position'' start
      rw [startingAt, Option.map_none, withLineEnds, List.flatMap_cons, if_pos rfl, ← withLineEnds, hends, hrest]
      rfl
    | ends c hb hnl hne hstep =>
      rw [← hhere, hstep] at h
      obtain ⟨more, hd, rfl⟩ := map_cons_eq_ok h
      obtain ⟨hmore, hall⟩ := ih (by simp) hcr.2 hd
      refine ⟨List.not_mem_cons_of_ne_of_not_mem hne.symm hmore, fun position' start => ?_⟩
      have hrest : decodeFrom (position' + 1) none (withLineEnds e rest) = .ok (charsWithLineEnds e more) :=
        hall (position' + 1) start
      rw [withLineEnds_cons_ne e hb, charsWithLineEnds_cons_ne e hnl, hstep, hrest]
      rfl
    | goesOn p hb hp hstep =>
      obtain ⟨start, hd⟩ := hstep position here rest
      rw [← hhere, hd] at h
      obtain ⟨hchars, hall⟩ := ih (by simpa [startingAt] using ⟨hp.low, hp.high, hp.bits, hp.last⟩) hcr.2 h
      refine ⟨hchars, fun position' start' => ?_⟩
      obtain ⟨start'', hd'⟩ := hstep position' start' (withLineEnds e rest)
      rw [withLineEnds_cons_ne e hb, hd']
      exact hall (position' + 1) start''
    | unfit hstep =>
      obtain ⟨fault, hfault⟩ := hstep position rest
      rw [hfault] at h
      nomatch h

/-! ## Reading with other line ends -/

/-- A character that does not begin a line end of two characters is read by itself. -/
theorem unifyNewlines_cons {c : Char} {rest : List Char} (h : c = '\r' → rest.head? ≠ some '\n') :
    unifyNewlines (c :: rest) = (if c = '\r' then '\n' else c) :: unifyNewlines rest := by
  rw [unifyNewlines]
  rintro more rfl rfl
  exact h rfl rfl

/-- With carriage returns as its line ends a text holds no line feed. -/
theorem head?_charsWithLineEnds_cr (chars : List Char) : (charsWithLineEnds .cr chars).head? ≠ some '\n' := by
  cases chars with
  | nil => exact nofun
  | cons c rest =>
    by_cases hc : c = '\n'
    · rw [charsWithLineEnds, List.flatMap_cons, if_pos hc]
      exact fun he => absurd (Option.some.inj he) (by decide)
    · rw [charsWithLineEnds_cons_ne _ hc]
      exact fun he => hc (Option.some.inj he)

theorem unifyNewlines_eq_self {chars : List Char} (h : '\r' ∉ chars) : unifyNewlines chars = chars := by
  induction chars with
  | nil => rfl
  | cons c rest ih =>
    rw [List.mem_cons, not_or] at h
    rw [unifyNewlines_cons fun he => absurd he.symm h.1, if_neg (Ne.symm h.1), ih h.2]

/-- A text without carriage returns is read the same with other line ends. -/
theorem unifyNewlines_charsWithLineEnds (e : LineEnd) {chars : List Char} (h : '\r' ∉ chars) :
    unifyNewlines (charsWithLineEnds e chars) = chars := by
  induction chars with
  | nil => rfl
  | cons c rest ih =>
    rw [List.mem_cons, not_or] at h
    by_cases hc : c = '\n'
    · subst hc
      have hends : charsWithLineEnds e ('\n' :: rest) = e.chars ++ charsWithLineEnds e rest := rfl
      rw [hends]
      cases e with
      | crlf => exact congrArg ('\n' :: ·) (ih h.2)
      | cr => exact (unifyNewlines_cons fun _ => head?_charsWithLineEnds_cr rest).trans (congrArg ('\n' :: ·) (ih h.2))
    · rw [charsWithLineEnds_cons_ne e hc, unifyNewlines_cons fun he => absurd he.symm h.1, if_neg (Ne.symm h.1), ih h.2]

/-- Octets that are read as the same text, one way or the other: octets that stand for text, without carriage returns, may have
every line feed written as another line end. -/
inductive SameLines : List UInt8 → List UInt8 → Prop where
  /-- The octets are the same. -/
  | refl (content : List UInt8) : SameLines content content
  /-- The line feeds of a text are written as another line end. -/
  | lineEnds (e : LineEnd) {content : List UInt8} {chars : List Char} (hchars : decode content = .ok chars)
    (hcr : 13 ∉ content) : SameLines content (withLineEnds e content)

theorem SameLines.decode {content content' : List UInt8} (h : SameLines content content') :
    content = content' ∨ ∃ chars chars', Text.decode content = .ok chars ∧ Text.decode content' = .ok chars' ∧
      unifyNewlines chars = unifyNewlines chars' := by
  cases h with
  | refl => exact Or.inl rfl
  | @lineEnds e content chars hchars hcr =>
    obtain ⟨hnone, hends⟩ := decodeFrom_withLineEnds e (by simp) hcr hchars
    refine Or.inr ⟨chars, charsWithLineEnds e chars, hchars, hends 0 0, ?_⟩
    exact (unifyNewlines_eq_self hnone).trans (unifyNewlines_charsWithLineEnds e hnone).symm

end Text

open Files (FileSystem Node SameOutline)

/-! ## Files with other line ends -/

/-- Two file systems that hold the same, but for the line ends of texts. -/
structure Files.SameUpToLineEnds (fs fs' : FileSystem) : Prop where
  /-- They are the same when their files are emptied. -/
  outline : SameOutline fs fs'
  /-- Every file of the one is read as the same text in the other. -/
  contents : ∀ q content, fs.content? q = some content →
    ∃ content', fs'.content? q = some content' ∧ Text.SameLines content content'

theorem Files.SameUpToLineEnds.text? {fs fs' : FileSystem} (h : SameUpToLineEnds fs fs') : fs.text? = fs'.text? := by
  funext path
  rw [FileSystem.text?, FileSystem.text?, FileSystem.octets?, FileSystem.octets?, FileSystem.stat?, FileSystem.stat?]
  cases hr : fs.find? path true with
  | error fault => rw [h.outline.sameShape.find?_error hr]
  | ok r =>
    obtain ⟨n', hn', hk⟩ := h.outline.sameShape.find?_ok hr
    obtain ⟨q, n⟩ := r
    obtain ⟨hat, -, -⟩ := FileSystem.route_spec (FileSystem.find?_eq_ok.1 hr).2
    obtain ⟨hat', -, -⟩ := FileSystem.route_spec (FileSystem.find?_eq_ok.1 hn').2
    rw [hn']
    cases n with
    | link _ =>
      obtain rfl := Node.eq_link_of_kind hk
      rfl
    | dir _ =>
      obtain ⟨_, rfl⟩ := Node.eq_dir_of_kind hk
      rfl
    | file content =>
      obtain ⟨content', rfl⟩ := Node.eq_file_of_kind hk
      obtain ⟨_, hcontent, hlines⟩ := h.contents q content (by rw [FileSystem.content?, hat]; rfl)
      rw [FileSystem.content?, hat'] at hcontent
      cases hcontent
      dsimp only [Except.map]
      rcases hlines.decode with rfl | ⟨chars, chars', hchars, hchars', hsame⟩
      · rfl
      · rw [hchars, hchars']
        exact congrArg Except.ok hsame

/-! ## Runs that read the same -/

/-- Two file systems that hold the same, as far as files are read as text. -/
structure Files.ReadSame (fs fs' : FileSystem) : Prop where
  /-- They are the same when their files are emptied. -/
  outline : SameOutline fs fs'
  /-- Every path leads to the same text. -/
  text : fs.text? = fs'.text?

section Runs

variable {fs fs' : FileSystem} (h : Files.ReadSame fs fs') (rules : Rules) (namingDirs : List String) (root project : Path)

include h

theorem loadJson_congr : loadJson fs = loadJson fs' := by
  funext path
  rw [loadJson, loadJson, h.text]

theorem Check.wrapperNames_congr (files : List SourceFile) : wrapperNames fs rules files = wrapperNames fs' rules files := by
  have hname : wrapperName fs rules = wrapperName fs' rules := by
    funext f
    rw [wrapperName, wrapperName, h.text]
  rw [wrapperNames, wrapperNames, hname]

theorem Check.references_congr : references fs rules project = references fs' rules project := by
  have hmissing : ∀ {α : Type} (path : α → String) (diagnostic : α → Diagnostic) (declared : List α),
      missingDiagnostics fs project path diagnostic declared = missingDiagnostics fs' project path diagnostic declared :=
    fun path diagnostic declared => missingDiagnostics_congr h.outline.sameShape project path diagnostic declared
  have hconfig : buildConfig fs rules project = buildConfig fs' rules project := by
    rw [buildConfig, buildConfig, h.outline.sameShape.exists?, loadJson_congr h]
    simp only [hmissing]
  have hcompile : compileFile fs project = compileFile fs' project := by
    funext path
    rw [compileFile, compileFile, h.text]
    simp only [hmissing]
  rw [references, references, hconfig, compileFiles, compileFiles, compileFilePaths, compileFilePaths, h.outline.projectFiles,
    hcompile]

theorem checkProject_congr : checkProject fs rules namingDirs root project = checkProject fs' rules namingDirs root project := by
  have hchecks : projectDiagnostics fs rules namingDirs project = projectDiagnostics fs' rules namingDirs project := by
    rw [projectDiagnostics, projectDiagnostics, h.outline.scan, h.outline.duplicateNames, Check.references_congr h]
    simp only [Check.wrapperNames_congr h]
  rw [checkProject, checkProject, hchecks]

theorem Discovery.discover_congr : discover fs rules root = discover fs' rules root := by
  have hclassify : classifyLogged fs rules = classifyLogged fs' rules := by
    funext scanRoot d
    rw [classifyLogged, classifyLogged, classify_congr h.outline.sameShape (congrFun h.text _)]
  rw [discover, discover, h.outline.sameShape.resolve, hclassify]
  simp only [candidateDirs_congr h.outline]

theorem Snapshot.draw_congr (ignored : List String) (depth : Nat) : draw fs ignored depth root = draw fs' ignored depth root := by
  have hnames : visibleNames fs ignored = visibleNames fs' ignored := by
    funext path
    rw [visibleNames, visibleNames, h.outline.sameShape.isDir?, Node.names_of_outline (h.outline.directoryAt path)]
  have hshown : ∀ path, shownBelow fs ignored depth path = shownBelow fs' ignored depth path := by
    induction depth with
    | zero => exact fun _ => rfl
    | succ depth ih =>
      intro path
      simp only [shownBelow, hnames, ih]
  rw [draw, draw, lines, lines, hshown]

theorem Check.surroundings_congr : surroundings fs rules root = surroundings fs' rules root := by
  rw [surroundings, surroundings, h.outline.sameShape.exists?, h.outline.sameShape.isDir?]
  simp only [Snapshot.draw_congr h]

theorem lint_congr : lint fs rules namingDirs root = lint fs' rules namingDirs root := by
  rw [lint, lint, h.outline.sameShape.resolve]
  simp only [Check.surroundings_congr h, Discovery.discover_congr h, funext (checkProject_congr h rules namingDirs _)]

end Runs

/-- A run does not see the line ends of texts: whichever files that hold text without carriage returns have all their line feeds
written as carriage returns, or as carriage returns with line feeds, its report is the same, and its log. -/
theorem lint_lineEnds {fs fs' : FileSystem} (h : Files.SameUpToLineEnds fs fs') (rules : Rules) (namingDirs : List String)
    (scanRoot : Path) : lint fs rules namingDirs scanRoot = lint fs' rules namingDirs scanRoot :=
  lint_congr ⟨h.outline, h.text?⟩ rules namingDirs scanRoot

/-- A file that is read as the same text may take the place of a file. -/
theorem Files.sameUpToLineEnds_putAt {fs : FileSystem} {position : List String} {content content' : List UInt8}
    (hat : fs.at? position = some (.file content)) (hlines : Text.SameLines content content')
    (hat' : (fs.putAt position (.file content')).at? position = some (.file content')) :
    SameUpToLineEnds fs (fs.putAt position (.file content')) := by
  have hdiffer := differOnlyAt_putAt hat content'
  refine ⟨hdiffer.outline, fun q old hold => ?_⟩
  by_cases hq : q = position
  · subst hq
    rw [FileSystem.content?, hat] at hold
    cases hold
    exact ⟨content', by rw [FileSystem.content?, hat']; rfl, hlines⟩
  · exact ⟨old, (hdiffer.content q hq).symm.trans hold, .refl old⟩

namespace LineEnds

/-- A wrapper that exports a class of another name, with a line feed in the declaration. -/
def wrapper : List UInt8 := SampleTree.octetsOf "export class\nTimer"

/-- A project with a wrapper of some content. -/
def tree (content : List UInt8) : FileSystem := SampleTree.withProject [("wrappers", .dir [("Counter.ts", .file content)])]

/-- The position of the wrapper. -/
def position : List String := ["w", "wrappers", "Counter.ts"]

end LineEnds

/-- A run does not see whether the lines of a wrapper end with a line feed or with a carriage return and a line feed. -/
theorem lint_lineEnds_wrapper :
    Text.withLineEnds .crlf LineEnds.wrapper ≠ LineEnds.wrapper ∧
      Files.SameUpToLineEnds (LineEnds.tree LineEnds.wrapper) (LineEnds.tree (Text.withLineEnds .crlf LineEnds.wrapper)) ∧
      lint (LineEnds.tree LineEnds.wrapper) {} ["wrappers"] (.absolute ["w"]) =
        lint (LineEnds.tree (Text.withLineEnds .crlf LineEnds.wrapper)) {} ["wrappers"] (.absolute ["w"]) := by
  have hchars : Text.decode LineEnds.wrapper = .ok "export class\nTimer".toList := by decide
  have hat : (LineEnds.tree LineEnds.wrapper).at? LineEnds.position = some (.file LineEnds.wrapper) := rfl
  have hsame : Files.SameUpToLineEnds (LineEnds.tree LineEnds.wrapper)
      (LineEnds.tree (Text.withLineEnds .crlf LineEnds.wrapper)) :=
    Files.sameUpToLineEnds_putAt hat (.lineEnds .crlf hchars (by decide)) rfl
  exact ⟨by decide, hsame, lint_lineEnds hsame {} ["wrappers"] (.absolute ["w"])⟩

end WorkspaceLint
