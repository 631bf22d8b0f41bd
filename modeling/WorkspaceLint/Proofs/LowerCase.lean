import WorkspaceLint.Text.Case
import Mathlib.Data.List.Basic

/-!
# What lower case leaves alone

The lower case of a text holds only characters that lower case leaves as they are, so a second change to lower case does nothing
(`lower_lower`), and a text is its own lower case exactly when it holds no other characters (`lower_eq_self_iff`). Both rest on the
table of runs, in which nothing that a run moves goes to where a run starts from. Of the context of a capital sigma only whether it
starts with a character that carries case shows in the result.
-/

namespace WorkspaceLint.Text

/-! ## The table of runs -/

/-- Whether no code point that a run moves goes to where another run starts from: the two ranges lie apart, or the steps of the
second one pass between all that the first one goes to. -/
def CaseRun.avoids (r r' : CaseRun) : Bool :=
  Nat.blt (r.target + (r.last - r.first)) r'.first || Nat.blt r'.last r.target ||
    ((r.first == r.last || r.step % r'.step == 0) && r.target % r'.step != r'.first % r'.step)

/-- Whether all that a run goes to are code points of characters. -/
def CaseRun.isValid (r : CaseRun) : Bool :=
  Nat.blt (r.target + (r.last - r.first)) 0xD800 ||
    (Nat.blt 0xDFFF r.target && Nat.blt (r.target + (r.last - r.first)) 0x110000)

theorem CaseRun.covers_iff {r : CaseRun} {n : Nat} :
    r.covers n = true ↔ r.first ≤ n ∧ n ≤ r.last ∧ (n - r.first) % r.step = 0 := by
  simp [CaseRun.covers, and_assoc]

theorem CaseRun.not_covers_move {r r' : CaseRun} (h : r.avoids r' = true) {n : Nat} (hn : r.covers n = true) :
    r'.covers (r.move n) = false := by
  obtain ⟨hfirst, hlast, hstep⟩ := covers_iff.1 hn
  by_contra hcovers
  rw [Bool.not_eq_false, covers_iff, CaseRun.move] at hcovers
  obtain ⟨hfirst', hlast', hstep'⟩ := hcovers
  simp only [CaseRun.avoids, Bool.or_eq_true, Bool.and_eq_true, beq_iff_eq, bne_iff_ne, Nat.blt_eq] at h
  rcases h with (h | h) | ⟨hmultiple, hne⟩
  · omega
  · omega
  · have hmove : (n - r.first) % r'.step = 0 := by
      rcases hmultiple with hsingle | hmultiple
      · have hzero : n - r.first = 0 := by omega
        rw [hzero, Nat.zero_mod]
      · exact Nat.mod_eq_zero_of_dvd (Nat.dvd_trans (Nat.dvd_of_mod_eq_zero hmultiple) (Nat.dvd_of_mod_eq_zero hstep))
    have htarget : r.target % r'.step = (r.target + (n - r.first)) % r'.step := by
      rw [Nat.add_mod, hmove, Nat.add_zero, Nat.mod_mod]
    have hstart : (r.target + (n - r.first)) % r'.step = r'.first % r'.step := by
      have hsum : r.target + (n - r.first) = r'.first + (r.target + (n - r.first) - r'.first) := by omega
      rw [hsum, Nat.add_mod, hstep', Nat.add_zero, Nat.mod_mod]
    exact hne (htarget.trans hstart)

theorem CaseRun.toNat_ofNat_move {r : CaseRun} (h : r.isValid = true) {n : Nat} (hn : r.covers n = true) :
    (Char.ofNat (r.move n)).toNat = r.move n := by
  obtain ⟨hfirst, hlast, -⟩ := covers_iff.1 hn
  simp only [CaseRun.isValid, Bool.or_eq_true, Bool.and_eq_true, Nat.blt_eq] at h
  have hvalid : (r.move n).isValidChar := by
    simp only [CaseRun.move, Nat.isValidChar]
    omega
  rw [Char.ofNat, dif_pos hvalid]
  rfl

theorem avoids_of_mem_lowerRuns {r r' : CaseRun} (hr : r ∈ lowerRuns) (hr' : r' ∈ lowerRuns) : r.avoids r' = true := by
  have hall : (lowerRuns.all fun r => lowerRuns.all r.avoids) = true := by decide +kernel
  exact List.all_eq_true.1 (List.all_eq_true.1 hall r hr) r' hr'

theorem isValid_of_mem_lowerRuns {r : CaseRun} (hr : r ∈ lowerRuns) : r.isValid = true := by
  have hall : lowerRuns.all CaseRun.isValid = true := by decide +kernel
  exact List.all_eq_true.1 hall r hr

/-- No run goes to the one character whose lower case is more than one. -/
theorem avoids_expansion {r : CaseRun} (hr : r ∈ lowerRuns) {n : Nat} (hn : r.covers n = true) : r.move n ≠ 0x130 := by
  have hall : (lowerRuns.all fun r => r.target + (r.last - r.first) < 0x130 || 0x130 < r.target) = true := by decide +kernel
  have h := List.all_eq_true.1 hall r hr
  obtain ⟨hfirst, hlast, -⟩ := CaseRun.covers_iff.1 hn
  simp only [Bool.or_eq_true, decide_eq_true_eq] at h
  rw [CaseRun.move]
  omega

/-- The two runs that go to letters of the first 128 code points. -/
theorem target_of_mem_lowerRuns {r : CaseRun} (hr : r ∈ lowerRuns) :
    0x80 ≤ r.target ∨ r = ⟨0x41, 0x5A, 1, 0x61⟩ ∨ r = ⟨0x212A, 0x212A, 1, 0x6B⟩ := by
  have hall : (lowerRuns.all fun r =>
      0x80 ≤ r.target || r == ⟨0x41, 0x5A, 1, 0x61⟩ || r == ⟨0x212A, 0x212A, 1, 0x6B⟩) = true := by decide +kernel
  have h := List.all_eq_true.1 hall r hr
  simpa [or_assoc] using h

/-! ## Characters -/

/-- A character moves by a run that covers it, or stays when none does. -/
theorem moveBy_cases (runs : List CaseRun) (c : Char) :
    (∃ r ∈ runs, r.covers c.toNat = true ∧ moveBy runs c = Char.ofNat (r.move c.toNat)) ∨
      (∀ r ∈ runs, r.covers c.toNat = false) ∧ moveBy runs c = c := by
  unfold moveBy
  split
  · rename_i r hr
    have hcovers := List.find?_some hr
    exact Or.inl ⟨r, List.mem_of_find?_eq_some hr, hcovers, rfl⟩
  · rename_i hnone
    exact Or.inr ⟨fun r hr => by simpa using List.find?_eq_none.1 hnone r hr, rfl⟩

/-- The lower case of a character: two characters for one, what a run moves it to, or the character itself. -/
theorem lowerChar_cases (c : Char) :
    (c.toNat = 0x130 ∧ lowerChar c = ['i', '\u0307']) ∨
      (∃ r ∈ lowerRuns, r.covers c.toNat = true ∧ lowerChar c = [Char.ofNat (r.move c.toNat)]) ∨
      c.toNat ≠ 0x130 ∧ (∀ r ∈ lowerRuns, r.covers c.toNat = false) ∧ lowerChar c = [c] := by
  unfold lowerChar mapCase
  by_cases hexpands : c.toNat = 0x130
  · left
    refine ⟨hexpands, ?_⟩
    rw [hexpands]
    rfl
  · right
    have hnone : lowerExpansions.lookup c.toNat = none := by
      rw [lowerExpansions, List.lookup_cons, beq_false_of_ne hexpands]
      rfl
    rw [hnone]
    rcases moveBy_cases lowerRuns c with ⟨r, hr, hcovers, hmove⟩ | ⟨hstays, hself⟩
    · exact Or.inl ⟨r, hr, hcovers, by rw [hmove]⟩
    · exact Or.inr ⟨hexpands, hstays, by rw [hself]⟩

/-- A character that lower case leaves as it is. -/
def IsSettled (c : Char) : Prop := lowerChar c = [c]

instance (c : Char) : Decidable (IsSettled c) := inferInstanceAs (Decidable (lowerChar c = [c]))

/-- A character is settled when it is not written as two and no run covers it. -/
theorem isSettled_iff {c : Char} : IsSettled c ↔ c.toNat ≠ 0x130 ∧ ∀ r ∈ lowerRuns, r.covers c.toNat = false := by
  unfold IsSettled
  rcases lowerChar_cases c with ⟨hexpands, hc⟩ | ⟨r, hr, hcovers, hc⟩ | ⟨hexpands, hruns, hc⟩
  · simp [hc, hexpands]
  · rw [hc]
    constructor
    · intro h
      have hself : r.move c.toNat = c.toNat := by
        rw [← CaseRun.toNat_ofNat_move (isValid_of_mem_lowerRuns hr) hcovers, (List.cons.inj h).1]
      have hnot := CaseRun.not_covers_move (avoids_of_mem_lowerRuns hr hr) hcovers
      rw [hself, hcovers] at hnot
      nomatch hnot
    · rintro ⟨-, hruns⟩
      rw [hruns r hr] at hcovers
      nomatch hcovers
  · exact ⟨fun _ => ⟨hexpands, hruns⟩, fun _ => hc⟩

/-- What a character becomes in lower case stays as it is. -/
theorem isSettled_of_mem_lowerChar {c d : Char} (h : d ∈ lowerChar c) : IsSettled d := by
  rcases lowerChar_cases c with ⟨-, hc⟩ | ⟨r, hr, hcovers, hc⟩ | ⟨hexpands, hruns, hc⟩
  · have hboth : IsSettled 'i' ∧ IsSettled '\u0307' := by decide +kernel
    rw [hc, List.mem_pair] at h
    rcases h with rfl | rfl
    · exact hboth.1
    · exact hboth.2
  · have hd : d.toNat = r.move c.toNat := by
      rw [hc, List.mem_singleton] at h
      rw [h, CaseRun.toNat_ofNat_move (isValid_of_mem_lowerRuns hr) hcovers]
    refine isSettled_iff.2 ⟨?_, fun r' hr' => ?_⟩
    · rw [hd]
      exact avoids_expansion hr hcovers
    · rw [hd]
      exact CaseRun.not_covers_move (avoids_of_mem_lowerRuns hr hr') hcovers
  · rw [hc, List.mem_singleton] at h
    rw [h]
    exact hc

theorem lowerChar_ne_nil (c : Char) : lowerChar c ≠ [] := by
  rcases lowerChar_cases c with ⟨-, h⟩ | ⟨r, -, -, h⟩ | ⟨-, -, h⟩
  all_goals simp [h]

/-- Of the first 128 code points, small letters come from themselves and from capitals, two of them also from elsewhere, and the
others from themselves only. -/
theorem eq_or_capital_of_mem_lowerChar {c d : Char} (h : d ∈ lowerChar c) (hd : d.toNat < 0x80) (hi : d ≠ 'i') (hk : d ≠ 'k') :
    c = d ∨ (0x41 ≤ c.toNat ∧ c.toNat ≤ 0x5A) ∧ d.toNat = c.toNat + 0x20 := by
  rcases lowerChar_cases c with ⟨-, hc⟩ | ⟨r, hr, hcovers, hc⟩ | ⟨-, -, hc⟩
  · rw [hc, List.mem_pair] at h
    rcases h with rfl | rfl
    · exact absurd rfl hi
    · exact absurd hd (by decide)
  · right
    rw [hc, List.mem_singleton] at h
    have hmove : d.toNat = r.move c.toNat := by
      rw [h, CaseRun.toNat_ofNat_move (isValid_of_mem_lowerRuns hr) hcovers]
    obtain ⟨hfirst, hlast, -⟩ := CaseRun.covers_iff.1 hcovers
    rw [CaseRun.move] at hmove
    rcases target_of_mem_lowerRuns hr with htarget | rfl | rfl
    · omega
    · dsimp only at hfirst hlast hmove
      omega
    · refine absurd (Char.toNat_inj.1 ?_) hk
      dsimp only at hfirst hlast hmove
      rw [hmove]
      have hzero : c.toNat - 0x212A = 0 := by omega
      rw [hzero]
      rfl
  · rw [hc, List.mem_singleton] at h
    exact Or.inl h.symm

/-- A character before the small letters comes from itself only. -/
theorem eq_of_mem_lowerChar {c d : Char} (h : d ∈ lowerChar c) (hd : d.toNat < 0x61) : c = d := by
  have hi : d ≠ 'i' := by
    rintro rfl
    exact absurd hd (by decide)
  have hk : d ≠ 'k' := by
    rintro rfl
    exact absurd hd (by decide)
  rcases eq_or_capital_of_mem_lowerChar h (by omega) hi hk with h | ⟨hcapital, hmove⟩
  · exact h
  · omega

/-! ## Texts -/

/-- What stands in the lower case of a text comes from a character of the text, the final sigma apart. -/
theorem exists_of_mem_lowerAfter {s : List Char} {d : Char} : ∀ {before : List Char}, d ∈ lowerAfter before s →
    d = 'ς' ∨ ∃ c ∈ s, d ∈ lowerChar c := by
  induction s with
  | nil =>
    intro before h
    nomatch h
  | cons c rest ih =>
    intro before h
    rw [lowerAfter, List.mem_append] at h
    rcases h with h | h
    · split at h
      · rename_i hsigma
        have hsmall : 'σ' ∈ lowerChar c := by
          rw [hsigma]
          decide +kernel
        unfold lowerSigma at h
        split at h
        · exact Or.inl (List.mem_singleton.1 h)
        · exact Or.inr ⟨c, List.mem_cons_self, by rwa [List.mem_singleton.1 h]⟩
      · exact Or.inr ⟨c, List.mem_cons_self, h⟩
    · rcases ih h with h | ⟨c', hc', h⟩
      · exact Or.inl h
      · exact Or.inr ⟨c', List.mem_cons_of_mem _ hc', h⟩

/-- What stands in the lower case of a text stays as it is. -/
theorem isSettled_of_mem_lowerAfter {before s : List Char} {d : Char} (h : d ∈ lowerAfter before s) : IsSettled d := by
  rcases exists_of_mem_lowerAfter h with rfl | ⟨c, -, h⟩
  · decide +kernel
  · exact isSettled_of_mem_lowerChar h

/-- The capital sigma is not settled, so no context is looked at in a settled text. -/
theorem IsSettled.ne_sigma {c : Char} (h : IsSettled c) : c ≠ 'Σ' := by
  have hsigma : ¬IsSettled 'Σ' := by decide +kernel
  rintro rfl
  exact hsigma h

/-- In a text without capital sigmas each character is changed by itself. -/
theorem lowerAfter_of_not_mem {s : List Char} (h : 'Σ' ∉ s) : ∀ before : List Char, lowerAfter before s = s.flatMap lowerChar := by
  induction s with
  | nil =>
    intro before
    rfl
  | cons c rest ih =>
    intro before
    rw [List.mem_cons, not_or] at h
    rw [lowerAfter, if_neg (Ne.symm h.1), ih h.2, List.flatMap_cons]

theorem lowerAfter_of_isSettled {s : List Char} (h : ∀ c ∈ s, IsSettled c) (before : List Char) : lowerAfter before s = s := by
  have hsigma : 'Σ' ∉ s := fun hmem => (h _ hmem).ne_sigma rfl
  have hself : s.flatMap lowerChar = s.flatMap fun c => [c] := List.flatMap_congr h
  rw [lowerAfter_of_not_mem hsigma, hself, List.flatMap_singleton']

/-- A text is its own lower case exactly when lower case leaves each of its characters as it is. -/
theorem lower_eq_self_iff {s : List Char} : lower s = s ↔ ∀ c ∈ s, IsSettled c := by
  constructor
  · intro h c hc
    rw [← h] at hc
    exact isSettled_of_mem_lowerAfter hc
  · intro h
    exact lowerAfter_of_isSettled h []

theorem lower_lower (s : List Char) : lower (lower s) = lower s :=
  lower_eq_self_iff.2 fun _ hc => isSettled_of_mem_lowerAfter hc

theorem lowered_eq_self_iff {s : String} : lowered s = s ↔ lower s.toList = s.toList := by
  rw [lowered, ← String.toList_inj, String.toList_ofList]

/-- The lower case of a text that is not empty is not empty. -/
theorem lowerAfter_ne_nil {before s : List Char} (h : s ≠ []) : lowerAfter before s ≠ [] := by
  cases s with
  | nil => exact absurd rfl h
  | cons c rest =>
    unfold lowerAfter
    split
    · simp
    · simp [lowerChar_ne_nil]

/-! ## Contexts -/

theorem startsCased_cons (c : Char) (s : List Char) :
    startsCased (c :: s) = if isCaseIgnorable c then startsCased s else isCased c := by
  unfold startsCased
  split
  · rename_i h
    rw [List.dropWhile_cons_of_pos h]
  · rename_i h
    rw [List.dropWhile_cons_of_neg h]
    rfl

/-- Of the text before, only whether it ends in a character that carries case shows in lower case. -/
theorem lowerAfter_congr {s : List Char} : ∀ {before before' : List Char}, startsCased before = startsCased before' →
    lowerAfter before s = lowerAfter before' s := by
  induction s with
  | nil =>
    intro before before' _
    rfl
  | cons c rest ih =>
    intro before before' h
    have hnext : startsCased (c :: before) = startsCased (c :: before') := by
      rw [startsCased_cons, startsCased_cons, h]
    rw [lowerAfter, lowerAfter, ih hnext, lowerSigma, lowerSigma, h]

/-- Before a character that is not passed over, and is no capital sigma, nothing of the text before shows in lower case. -/
theorem lowerAfter_cons_congr {c : Char} (hsigma : c ≠ 'Σ') (hseen : isCaseIgnorable c = false) (before before' s : List Char) :
    lowerAfter before (c :: s) = lowerAfter before' (c :: s) := by
  have hnext : startsCased (c :: before) = startsCased (c :: before') := by
    simp [startsCased_cons, hseen]
  rw [lowerAfter, lowerAfter, if_neg hsigma, if_neg hsigma, lowerAfter_congr hnext]

/-- The lower case of two texts in a row ends in the one of the second text, as it stands after the first. -/
theorem exists_lowerAfter_append (s t : List Char) : ∀ before : List Char,
    ∃ start, lowerAfter before (s ++ t) = start ++ lowerAfter (s.reverse ++ before) t := by
  induction s with
  | nil =>
    intro before
    exact ⟨[], rfl⟩
  | cons c rest ih =>
    intro before
    obtain ⟨start, hstart⟩ := ih (c :: before)
    rw [List.cons_append, lowerAfter, hstart, List.reverse_cons, List.append_assoc, List.singleton_append, ← List.append_assoc]
    exact ⟨_, rfl⟩

end WorkspaceLint.Text
