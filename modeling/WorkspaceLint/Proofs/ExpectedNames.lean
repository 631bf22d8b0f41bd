import WorkspaceLint.Proofs.FileKinds
import WorkspaceLint.Proofs.SnakeCaseForms
import Mathlib.Data.List.Sections

/-!
# Names that files should have

The name that the rule for contracts asks for, and the file that has it. A file with a suffix keeps the suffix when it is renamed, and
its new stem is its canonical name. That name may end in a test marker once more, since the marker is looked for before the change to
lower case and dropped once: then the renamed contract is reported again. `ofLocation?_renamed` says of which contracts this is so.
-/

namespace WorkspaceLint

namespace Naming

/-- The name that the file at a path should have: its canonical name with its suffix. -/
def expectedName (p : Path) : String := canonicalName p ++ p.suffix

/-- The path of a file once it has the name that it should have. -/
def renamed (p : Path) : Path := p.parent.child (expectedName p)

/-! ## Stems and suffixes -/

/-- A name with a suffix goes on before it, and the suffix has one dot, its first character, and more behind it. -/
theorem exists_of_suffix_ne {p : Path} (h : p.suffix ≠ "") : ∃ before after,
    before ≠ [] ∧ after ≠ [] ∧ '.' ∉ after ∧ p.stem = String.ofList before ∧ p.suffix = String.ofList ('.' :: after) := by
  rcases splitSuffix_cases p.name.toList with hno | ⟨before, after, hbefore, hafter, hdot, hsplit⟩
  · rw [Path.suffix, hno] at h
    exact absurd rfl h
  · refine ⟨before, after, hbefore, hafter, hdot, ?_, ?_⟩
    · rw [Path.stem, hsplit]
    · rw [Path.suffix, hsplit]

/-- A file with a suffix has its canonical name as its stem once it is renamed, and still the same suffix. -/
theorem splitSuffix_renamed {p : Path} (h : p.suffix ≠ "") (hname : canonicalName p ≠ "") :
    (renamed p).stem = canonicalName p ∧ (renamed p).suffix = p.suffix := by
  obtain ⟨before, after, -, hafter, hdot, -, hsuffix⟩ := exists_of_suffix_ne h
  have hne : (canonicalName p).toList ≠ [] := fun hnil => hname (String.toList_eq_nil_iff.1 hnil)
  have hsplit : splitSuffix (renamed p).name.toList = ((canonicalName p).toList, '.' :: after) := by
    rw [renamed, Path.child_name, expectedName, String.toList_append, hsuffix, String.toList_ofList]
    exact splitSuffix_of_dot hne hafter hdot
  rw [Path.stem, Path.suffix, hsplit, String.ofList_toList, hsuffix]
  exact ⟨rfl, rfl⟩

theorem canonicalName_eq_empty_iff {p : Path} : canonicalName p = "" ↔ dropTestMarker p.stem.toList = [] := by
  rw [canonicalName, canonicalStem, String.ofList_eq_empty_iff, snakeChars_eq_lower_divided]
  constructor
  · intro h
    by_contra hne
    obtain ⟨c, rest, hs⟩ := List.exists_cons_of_ne_nil hne
    obtain ⟨more, hmore⟩ := exists_divided_cons c rest
    rw [hs, hmore] at h
    exact Text.lowerAfter_ne_nil (List.cons_ne_nil _ _) h
  · intro h
    rw [h]
    rfl

/-! ## Test markers -/

/-- The endings that are dropped from stems: the test markers, and the markers before a line feed, which stays. -/
def markerEndings : List (List Char) := testMarkers.flatMap fun m => [m, m ++ ['\n']]

/-- The endings that become one of `markerEndings` in snake_case. -/
def spelledEndings : List (List Char) :=
  [".spec", ".Spec", ".SPEC", ".test", ".Test", ".TEST"].flatMap fun m => [m.toList, m.toList ++ ['\n']]

/-- A stem ends in a test marker in one of the spellings that snake_case makes one of, and a line feed may follow. -/
def EndsInMarker (stem : List Char) : Prop := ∃ e ∈ spelledEndings, e <:+ stem

instance (stem : List Char) : Decidable (EndsInMarker stem) := inferInstanceAs (Decidable (∃ e ∈ spelledEndings, e <:+ stem))

/-- The characters that a character of the first 128 code points is the lower case of, when it is no letter that others become. -/
def spellings (c : Char) : List Char := if isSmall c then [c, Char.ofNat (c.toNat - 0x20)] else [c]

/-- A stem keeps all it has exactly when it does not end in a marker. -/
theorem dropTestMarker_eq_self_iff {s : List Char} : dropTestMarker s = s ↔ ∀ e ∈ markerEndings, ¬e <:+ s := by
  have hlength : ∀ m ∈ testMarkers, m.length = 5 := by decide
  have hendings : (∀ e ∈ markerEndings, ¬e <:+ s) ↔ ∀ m ∈ testMarkers, ¬m <:+ s ∧ ¬(m ++ ['\n']) <:+ s := by
    simp only [markerEndings, List.forall_mem_flatMap, List.forall_mem_cons, List.not_mem_nil, false_implies, implies_true, and_true]
  rw [hendings]
  unfold dropTestMarker
  simp only [List.any_eq_true, List.isSuffixOf_iff_suffix]
  split
  · rename_i h
    obtain ⟨m, hm, hends⟩ := h
    have hle := hends.length_le
    refine iff_of_false (fun heq => ?_) fun hno => (hno m hm).1 hends
    have := congrArg List.length heq
    rw [List.length_take] at this
    have := hlength m hm
    omega
  · rename_i hno
    split
    · rename_i h
      obtain ⟨m, hm, hends⟩ := h
      have hle := hends.length_le
      refine iff_of_false (fun heq => ?_) fun hno => (hno m hm).2 hends
      have := congrArg List.length heq
      rw [List.length_append, List.length_take, List.length_singleton] at this
      have := hlength m hm
      rw [List.length_append, List.length_singleton] at hle
      omega
    · rename_i hno'
      exact iff_of_true rfl fun m hm => ⟨fun h => hno ⟨m, hm, h⟩, fun h => hno' ⟨m, hm, h⟩⟩

/-- What is left of a stem without its marker stood in the stem. -/
theorem mem_of_mem_dropTestMarker {s : List Char} {c : Char} (h : c ∈ dropTestMarker s) : c ∈ s ∨ c = '\n' := by
  unfold dropTestMarker at h
  split at h
  · exact Or.inl (List.mem_of_mem_take h)
  · split at h
    · rcases List.mem_append.1 h with h | h
      · exact Or.inl (List.mem_of_mem_take h)
      · exact Or.inr (List.mem_singleton.1 h)
    · exact Or.inl h

/-- Of a stem in snake_case the canonical one is the stem without its marker. -/
theorem canonicalStem_snakeChars (s : List Char) :
    canonicalStem (String.ofList (snakeChars s)) = String.ofList (dropTestMarker (snakeChars s)) := by
  rw [canonicalStem, String.toList_ofList, snakeChars_of_isSettled]
  intro c hc
  rcases mem_of_mem_dropTestMarker hc with hc | rfl
  · exact isSettled_of_mem_snakeChars hc
  · decide +kernel

/-- A text is split at the last of its dots in one way. -/
theorem append_cons_inj_of_not_mem {a : Char} {s t u v : List Char} (ht : a ∉ t) (hv : a ∉ v) (h : s ++ a :: t = u ++ a :: v) :
    s = u ∧ t = v := by
  have hreverse : t.reverse ++ a :: s.reverse = v.reverse ++ a :: u.reverse := by
    simpa using congrArg List.reverse h
  rcases List.append_eq_append_iff.1 hreverse with ⟨more, hmore, heq⟩ | ⟨more, hmore, heq⟩
  · cases more with
    | nil => simp_all
    | cons b more =>
      rw [List.cons_append, List.cons.injEq] at heq
      exact absurd (List.mem_reverse.1 (hmore ▸ List.mem_append_right _ (heq.1 ▸ List.mem_cons_self))) hv
  · cases more with
    | nil => simp_all
    | cons b more =>
      rw [List.cons_append, List.cons.injEq] at heq
      exact absurd (List.mem_reverse.1 (hmore ▸ List.mem_append_right _ (heq.1 ▸ List.mem_cons_self))) ht

/-- A text with a dot is split at the last one. -/
theorem exists_append_cons_of_mem {a : Char} {s : List Char} (h : a ∈ s) :
    ∃ before after, s = before ++ a :: after ∧ a ∉ after := by
  obtain ⟨after, before, hs, hafter⟩ := List.eq_append_cons_of_mem (List.mem_reverse.2 h)
  refine ⟨before.reverse, after.reverse, ?_, by rwa [List.mem_reverse]⟩
  simpa using congrArg List.reverse hs

/-- A dot in the lower case of a divided text stands in the text. -/
theorem dot_mem_of_mem_lowerAfter {before s : List Char} (h : '.' ∈ Text.lowerAfter before (divided s)) : '.' ∈ s := by
  rcases Text.exists_of_mem_lowerAfter h with h | ⟨c, hc, h⟩
  · exact absurd h (by decide)
  · obtain rfl := Text.eq_of_mem_lowerChar h (by decide)
    exact (mem_of_mem_divided hc).resolve_right (by decide)

/-- The snake_case form goes on behind a dot as the form of what stands there. -/
theorem exists_snakeChars_append_dot (s t : List Char) :
    ∃ start before, snakeChars (s ++ '.' :: t) = start ++ '.' :: Text.lowerAfter before (divided t) := by
  obtain ⟨start, hstart⟩ := Text.exists_lowerAfter_append (divided s) ('.' :: divided t) []
  have hdot : Text.lowerChar '.' = ['.'] := by decide +kernel
  refine ⟨start, '.' :: ((divided s).reverse ++ []), ?_⟩
  rw [snakeChars_eq_lower_divided, divided_append_dot, Text.lower, hstart, Text.lowerAfter, if_neg (by decide), hdot]
  rfl

/-- A character of the first 128 code points that is no letter which others become is read back from its spellings. -/
def IsPlain (d : Char) : Prop := d.toNat < 0x80 ∧ d ≠ 'i' ∧ d ≠ 'k'

instance (d : Char) : Decidable (IsPlain d) := inferInstanceAs (Decidable (_ ∧ _))

theorem mem_spellings {c d : Char} (h : d ∈ Text.lowerChar c) (hd : IsPlain d) : c ∈ spellings d := by
  obtain ⟨hsmall, hi, hk⟩ := hd
  unfold spellings
  rcases Text.eq_or_capital_of_mem_lowerChar h hsmall hi hk with rfl | ⟨hcapital, hmove⟩
  · split
    · exact List.mem_cons_self
    · exact List.mem_singleton_self c
  · have hletter : isSmall d = true := by
      simp only [isSmall, Bool.and_eq_true, decide_eq_true_eq, Char.le_def, UInt32.le_iff_toNat_le]
      change 97 ≤ d.toNat ∧ d.toNat ≤ 122
      omega
    have hback : d.toNat - 0x20 = c.toNat := by omega
    rw [if_pos hletter, hback, Char.ofNat_toNat]
    simp

/-- A text whose lower case is plain is a spelling of it, character by character. -/
theorem mem_sections_of_lowerAfter {s : List Char} : ∀ {before lowered : List Char}, Text.lowerAfter before s = lowered →
    (∀ d ∈ lowered, IsPlain d) → s ∈ (lowered.map spellings).sections := by
  induction s with
  | nil =>
    rintro before _ rfl -
    simp [Text.lowerAfter]
  | cons c rest ih =>
    rintro before _ rfl hplain
    rw [Text.lowerAfter] at hplain ⊢
    split at hplain
    · have hsigma := hplain _ (List.mem_append_left _ (List.mem_singleton_self _))
      unfold Text.lowerSigma at hsigma
      split at hsigma
      · exact absurd hsigma (by decide)
      · exact absurd hsigma (by decide)
    · rename_i hc
      rw [if_neg hc]
      obtain ⟨d, hd⟩ : ∃ d, Text.lowerChar c = [d] := by
        rcases Text.lowerChar_cases c with ⟨-, htwo⟩ | ⟨r, -, -, hone⟩ | ⟨-, -, hone⟩
        · rw [htwo] at hplain
          exact absurd rfl (hplain 'i' List.mem_cons_self).2.1
        · exact ⟨_, hone⟩
        · exact ⟨_, hone⟩
      rw [hd, List.singleton_append, List.forall_mem_cons] at hplain
      rw [hd, List.singleton_append, List.map_cons, List.mem_sections]
      refine List.Forall₂.cons (mem_spellings (hd ▸ List.mem_singleton_self d) hplain.1) ?_
      exact List.mem_sections.1 (ih rfl hplain.2)

/-- A snake_case form ends in a marker exactly when the text does, in some spelling. The ending is what stands behind the last dot,
and its spellings can be counted. -/
theorem exists_suffix_snakeChars_iff {s : List Char} :
    (∃ e ∈ markerEndings, e <:+ snakeChars s) ↔ EndsInMarker s := by
  constructor
  · rintro ⟨e, he, start, hs⟩
    have hending : ∀ e ∈ markerEndings, e = '.' :: e.tail ∧ '.' ∉ e.tail ∧ (e.tail.all fun d => IsPlain d) = true ∧
        ∀ v ∈ (e.tail.map spellings).sections, '_' ∉ v ∧ (divided v = v → '.' :: v ∈ spelledEndings) := by decide
    obtain ⟨hcons, hlast, hplain, hspelled⟩ := hending e he
    have hdot : '.' ∈ snakeChars s := by
      rw [← hs, hcons]
      simp
    have hmem : '.' ∈ s := dot_mem_of_mem_lowerAfter (snakeChars_eq_lower_divided s ▸ hdot)
    obtain ⟨before, after, rfl, hafter⟩ := exists_append_cons_of_mem hmem
    obtain ⟨start', context, hsnake⟩ := exists_snakeChars_append_dot before after
    have hnodot : '.' ∉ Text.lowerAfter context (divided after) := fun h => hafter (dot_mem_of_mem_lowerAfter h)
    rw [hsnake, hcons] at hs
    obtain ⟨-, htail⟩ := append_cons_inj_of_not_mem hlast hnodot hs
    have hsection := mem_sections_of_lowerAfter htail.symm fun d hd => of_decide_eq_true (List.all_eq_true.1 hplain d hd)
    obtain ⟨hno, hin⟩ := hspelled _ hsection
    have hself : divided after = after := divided_of_not_mem hno
    rw [hself] at hin
    exact ⟨_, hin hself, List.suffix_append _ _⟩
  · rintro ⟨e, he, start, rfl⟩
    have hending : ∀ e ∈ spelledEndings, e = '.' :: e.tail ∧ 'Σ' ∉ divided e.tail ∧
        '.' :: (divided e.tail).flatMap Text.lowerChar ∈ markerEndings := by decide +kernel
    obtain ⟨hcons, hsigma, hmarker⟩ := hending e he
    obtain ⟨start', context, hsnake⟩ := exists_snakeChars_append_dot start e.tail
    rw [← hcons, Text.lowerAfter_of_not_mem hsigma] at hsnake
    rw [hsnake]
    exact ⟨_, hmarker, List.suffix_append _ _⟩

end Naming

/-! ## Renamed contracts -/

namespace SourceFile

section Contracts

variable {rules : Rules} {targets : List Path} {path location : Path}

/-- A path in a project stands for a contract exactly when it lies in a target directory, outside of the dependency cache, and has the
suffix of one. -/
theorem ofLocation?_contract_iff {f : SourceFile} :
    (ofLocation? rules targets path location = some f ∧ f.category = .contract) ↔
      f = ⟨path, location, .contract, false⟩ ∧ rules.dependencyCacheDir ∉ location.parts ∧
        (targetOf? targets location).isSome = true ∧ path.suffix ∈ rules.contractExtensions := by
  unfold ofLocation?
  split
  · rename_i hcache
    simp [hcache]
  · rename_i hcache
    cases htarget : targetOf? targets location with
    | none => simp
    | some target =>
      simp only [Option.bind_some, classify?, Option.map_eq_some_iff, Prod.exists]
      constructor
      · rintro ⟨⟨category, isCompileVariant, hcategory, rfl⟩, hcontract⟩
        have hsuffix := (category_eq_contract_iff hcategory).1 hcontract
        rw [categoryOf?, if_pos hsuffix] at hcategory
        cases hcategory
        exact ⟨rfl, hcache, rfl, hsuffix⟩
      · rintro ⟨rfl, -, -, hsuffix⟩
        refine ⟨⟨.contract, false, ?_, rfl⟩, rfl⟩
        rw [categoryOf?, if_pos hsuffix]

/-- Only the directory that a file lies in tells which target holds it. -/
theorem targetOf?_child (targets : List Path) (location : Path) (name : String) :
    targetOf? targets (location.parent.child name) = targetOf? targets location := by
  simp only [targetOf?, Path.child_parent]

/-- A contract is reported exactly when its stem is not its canonical name. -/
theorem contractNames_singleton_eq_nil_iff {f : SourceFile} (hcontract : f.category = .contract) :
    Check.contractNames [f] = [] ↔ f.stem = f.canonicalName := by
  simp [Check.contractNames, Check.contractDiagnostic?, hcontract]

/-- What is reported of a contract tells the name that it should have. -/
theorem message_of_contractNames {f : SourceFile} {d : Diagnostic} (h : Check.contractNames [f] = [d]) :
    d.message = "合约文件应使用 snake_case 命名。期望: '" ++ Naming.expectedName f.path ++ "'，实际: '" ++ f.name ++ "'。" := by
  have hmem : d ∈ Check.contractNames [f] := by simp [h]
  simp only [Check.contractNames, List.mem_filterMap, List.mem_filter, List.mem_singleton] at hmem
  obtain ⟨_, ⟨rfl, -⟩, hd⟩ := hmem
  rw [Check.contractDiagnostic?, Option.ite_none_left_eq_some] at hd
  obtain ⟨-, hd⟩ := hd
  rw [← Option.some.inj hd, Naming.expectedName, ← String.append_assoc]
  rfl

/-- What ends in a suffix of contracts is not the name of the dependency cache. -/
theorem append_ne_dependencyCacheDir {suffix : String} (h : suffix ∈ ({} : Rules).contractExtensions) (stem : String) :
    stem ++ suffix ≠ ({} : Rules).dependencyCacheDir := by
  intro heq
  obtain ⟨c, hc, hne⟩ := contractExtension_last h
  have hlast := getLast?_of_endsIn (heq ▸ endsIn_append stem suffix) hc
  have hcache : ({} : Rules).dependencyCacheDir.toList.getLast? = some 's' := by decide
  exact hne (Option.some.inj (hlast.symm.trans hcache))

/-- A name with a suffix of contracts stands in the cache and in a target exactly when another one in its directory does. -/
theorem ofLocation?_child_iff {name : String} (hname : name ≠ ({} : Rules).dependencyCacheDir)
    (hcache : ({} : Rules).dependencyCacheDir ∉ location.parts) (htarget : (targetOf? targets location).isSome = true) {f : SourceFile} :
    (ofLocation? {} targets path (location.parent.child name) = some f ∧ f.category = .contract) ↔
      f = ⟨path, location.parent.child name, .contract, false⟩ ∧ path.suffix ∈ ({} : Rules).contractExtensions := by
  have hout : ({} : Rules).dependencyCacheDir ∉ (location.parent.child name).parts := by
    intro hmem
    rcases List.mem_append.1 hmem with hmem | hmem
    · exact hcache (List.mem_of_mem_dropLast hmem)
    · exact hname (List.mem_singleton.1 hmem).symm
  rw [ofLocation?_contract_iff, targetOf?_child]
  simp only [hout, htarget, not_false_eq_true, true_and]

end Contracts

/-- A contract that is reported is told the name that it should have. Under that name, in the same directory, it is a contract and is not
reported, exactly when its stem, without its test marker, is not empty and does not end in another one, in small letters, with a capital
or in capitals. -/
theorem ofLocation?_renamed {targets : List Path} {path location : Path} {f : SourceFile} {d : Diagnostic}
    (hf : ofLocation? {} targets path location = some f) (hcontract : f.category = .contract) (hd : Check.contractNames [f] = [d]) :
    d.message = "合约文件应使用 snake_case 命名。期望: '" ++ Naming.expectedName path ++ "'，实际: '" ++ path.name ++ "'。" ∧
      ((∃ g, ofLocation? {} targets (Naming.renamed path) (location.parent.child (Naming.expectedName path)) = some g ∧
          g.category = .contract ∧ Check.contractNames [g] = []) ↔
        Naming.dropTestMarker path.stem.toList ≠ [] ∧ ¬Naming.EndsInMarker (Naming.dropTestMarker path.stem.toList)) := by
  obtain ⟨rfl, hcache, htarget, hsuffix⟩ := ofLocation?_contract_iff.1 ⟨hf, hcontract⟩
  have hmessage := message_of_contractNames hd
  rw [SourceFile.name] at hmessage
  refine ⟨hmessage, ?_⟩
  have hne : path.suffix ≠ "" := fun h => absurd (h ▸ hsuffix) (by decide)
  have hother : Naming.expectedName path ≠ ({} : Rules).dependencyCacheDir := append_ne_dependencyCacheDir hsuffix _
  have hname : (Naming.renamed path).suffix ∈ ({} : Rules).contractExtensions → Naming.canonicalName path ≠ "" := by
    intro hmem hempty
    refine (suffix_mem_contractExtensions_iff.1 hmem).2 ?_
    rw [Naming.renamed, Path.child_name, Naming.expectedName, hempty, String.empty_append]
    exact hsuffix
  have hstem (h : Naming.canonicalName path ≠ "") : (Naming.renamed path).stem = Naming.canonicalName (Naming.renamed path) ↔
      ¬Naming.EndsInMarker (Naming.dropTestMarker path.stem.toList) := by
    rw [Naming.canonicalName, (Naming.splitSuffix_renamed hne h).1, Naming.canonicalName, Naming.canonicalStem,
      Naming.canonicalStem_snakeChars, ← Naming.exists_suffix_snakeChars_iff, String.ofList_inj, eq_comm,
      Naming.dropTestMarker_eq_self_iff]
    simp
  rw [ne_eq, ← Naming.canonicalName_eq_empty_iff]
  constructor
  · rintro ⟨g, hg, hgcontract, hclear⟩
    rw [contractNames_singleton_eq_nil_iff hgcontract] at hclear
    obtain ⟨rfl, hmem⟩ := (ofLocation?_child_iff hother hcache htarget).1 ⟨hg, hgcontract⟩
    have hcanonical := hname hmem
    exact ⟨hcanonical, (hstem hcanonical).1 hclear⟩
  · rintro ⟨hcanonical, hends⟩
    have hmem := (Naming.splitSuffix_renamed hne hcanonical).2 ▸ hsuffix
    obtain ⟨hg, hgcontract⟩ := (ofLocation?_child_iff hother hcache htarget).2 ⟨rfl, hmem⟩
    refine ⟨_, hg, hgcontract, ?_⟩
    rw [contractNames_singleton_eq_nil_iff hgcontract]
    exact (hstem hcanonical).2 hends

end SourceFile

namespace ExpectedNames

/-- A file under the contracts of a project. -/
def contract (name : String) : SourceFile where
  path := .absolute ["w", "contracts", name]
  location := .ofParts ["contracts", name]
  category := .contract
  isCompileVariant := false

/-- Whether a file under the contracts is taken for a contract, and reported. -/
def IsReported (name : String) : Prop :=
  SourceFile.ofLocation? {} [.ofParts ["contracts"]] (contract name).path (contract name).location = some (contract name) ∧
    Check.contractNames [contract name] ≠ []

instance (name : String) : Decidable (IsReported name) := inferInstanceAs (Decidable (_ ∧ _))

end ExpectedNames

namespace SourceFile

/-- A contract with a dot and a marker in its stem is clear under the name that it should have. -/
theorem ofLocation?_renamed_item : ∃ d, Check.contractNames [ExpectedNames.contract "NFTItem.Final.spec.tact"] = [d] ∧
    d.message = "合约文件应使用 snake_case 命名。期望: 'nft_item.final.tact'，实际: 'NFTItem.Final.spec.tact'。" ∧
      ∃ g, ofLocation? {} [.ofParts ["contracts"]] (.absolute ["w", "contracts", "nft_item.final.tact"])
          (.ofParts ["contracts", "nft_item.final.tact"]) = some g ∧ g.category = .contract ∧ Check.contractNames [g] = [] := by
  have hf : ofLocation? {} [.ofParts ["contracts"]] (ExpectedNames.contract "NFTItem.Final.spec.tact").path
      (ExpectedNames.contract "NFTItem.Final.spec.tact").location = some (ExpectedNames.contract "NFTItem.Final.spec.tact") := by
    decide +kernel
  obtain ⟨d, hd⟩ : ∃ d, Check.contractNames [ExpectedNames.contract "NFTItem.Final.spec.tact"] = [d] := by
    refine List.length_eq_one_iff.1 ?_
    decide +kernel
  have hname : Naming.expectedName (ExpectedNames.contract "NFTItem.Final.spec.tact").path = "nft_item.final.tact" := by
    decide +kernel
  obtain ⟨hmessage, hclear⟩ := ofLocation?_renamed hf rfl hd
  rw [Naming.renamed, hname] at hclear
  rw [hname] at hmessage
  refine ⟨d, hd, hmessage, hclear.2 ⟨by decide +kernel, by decide +kernel⟩⟩

/-- A contract with a test marker in capitals is reported again under the name that it should have, and one whose stem is a marker is
no contract under it. -/
theorem ofLocation?_renamed_reported :
    (ExpectedNames.IsReported "Token.SPEC.fc" ∧
      Naming.expectedName (ExpectedNames.contract "Token.SPEC.fc").path = "token.spec.fc" ∧ ExpectedNames.IsReported "token.spec.fc" ∧
        Naming.expectedName (ExpectedNames.contract "token.spec.fc").path = "token.fc") ∧
      (ExpectedNames.IsReported ".spec.fc" ∧ Naming.expectedName (ExpectedNames.contract ".spec.fc").path = ".fc" ∧
        ofLocation? {} [.ofParts ["contracts"]] (ExpectedNames.contract ".fc").path (ExpectedNames.contract ".fc").location = none) := by
  decide +kernel

end SourceFile

end WorkspaceLint
