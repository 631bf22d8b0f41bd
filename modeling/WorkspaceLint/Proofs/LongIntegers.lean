import WorkspaceLint.DataFile
import Mathlib.Data.List.Basic

/-!
# Integers of too many digits

The one way in which octets that can be read make a JSON file neither a value nor a fault of the file: an integer of more digits
than may be converted stands where a value may stand, with nothing wrong before it (`exists_loadJson_iff`).
-/

namespace WorkspaceLint

namespace Json

namespace State

/-- Whether a value may stand next. -/
def takesValue (s : State) : Bool :=
  match s.mode with
  | .value => true
  | .firstItem => true
  | _ => false

/-- The state after tokens, when each may stand where it stands. -/
def stepAll (text : List Char) : State → List (Nat × Token) → Except Error State
  | s, [] => .ok s
  | s, (offset, t) :: rest => (s.step text offset t).bind fun s => stepAll text s rest

end State

/-- A text with an integer of too many digits where a value may stand, and nothing wrong before it. -/
def MeetsLongInteger (text : List Char) : Prop :=
  ∃ before offset negative digits after s, scan text = before ++ (offset, .integer negative digits) :: after ∧
    State.start.stepAll text before = .ok s ∧ s.takesValue = true ∧ Number.maxDigits < digits.length

namespace State

variable {text : List Char} {s : State} {frames : List Frame} {entries : List (Value × Value)} {offset n : Nat} {t : Token}

theorem stepValue_eq_integerTooLong :
    stepValue text frames offset t = .error (.integerTooLong n) ↔
      ∃ negative digits, t = .integer negative digits ∧ Number.maxDigits < digits.length ∧ n = digits.length := by
  cases t
  case integer negative digits =>
    rw [stepValue]
    by_cases hlong : Number.maxDigits < digits.length
    · simp [hlong, eq_comm]
    · simp [hlong]
  all_goals simp [stepValue, Error.at]

theorem stepKey_ne_integerTooLong : stepKey text frames entries offset t ≠ .error (.integerTooLong n) := by
  cases t <;> simp [stepKey, Error.at]

theorem stepAfter_ne_integerTooLong {v : Value} {frame : Frame} :
    stepAfter text v frame frames offset t ≠ .error (.integerTooLong n) := by
  cases frame <;> cases t <;> simp [stepAfter, Error.at]

/-- A token is refused for its digits when it is an integer of too many of them where a value may stand. -/
theorem step_eq_integerTooLong :
    s.step text offset t = .error (.integerTooLong n) ↔
      s.takesValue = true ∧
        ∃ negative digits, t = .integer negative digits ∧ Number.maxDigits < digits.length ∧ n = digits.length := by
  obtain ⟨mode, frames⟩ := s
  cases mode with
  | value => simp [step, takesValue, stepValue_eq_integerTooLong]
  | firstItem =>
    cases t
    case rightBracket => simp [step, takesValue]
    all_goals simp only [step, takesValue, stepValue_eq_integerTooLong, true_and]
  | key entries => simp [step, takesValue, stepKey_ne_integerTooLong]
  | firstKey =>
    cases t
    case rightBrace => simp [step, takesValue]
    all_goals simp [step, takesValue, stepKey_ne_integerTooLong]
  | colon entries key => cases t <;> simp [step, takesValue, Error.at]
  | after v =>
    cases frames with
    | nil => simp [step, takesValue, Error.at]
    | cons frame frames => simp [step, takesValue, stepAfter_ne_integerTooLong]

/-- Reading on is one step and then the rest, except at the end of the text after a whole value. -/
theorem run_cons (text : List Char) (s : State) (offset : Nat) (t : Token) (rest : List (Nat × Token)) :
    (∃ v, s = ⟨.after v, []⟩ ∧ t = .done ∧ s.run text ((offset, t) :: rest) = .ok v) ∨
      s.run text ((offset, t) :: rest) = (s.step text offset t).bind fun s => s.run text rest := by
  by_cases h : ∃ v, s = ⟨.after v, []⟩ ∧ t = .done
  · obtain ⟨v, rfl, rfl⟩ := h
    exact Or.inl ⟨v, rfl, rfl, rfl⟩
  · right
    rw [run]
    intro v hm hf ht
    refine h ⟨v, ?_, ht⟩
    cases s
    cases hm
    cases hf
    rfl

/-- Reading tokens is refused for an integer of too many digits exactly when they come to one. -/
theorem run_eq_integerTooLong {tokens : List (Nat × Token)} :
    s.run text tokens = .error (.integerTooLong n) ↔
      ∃ before offset negative digits after s', tokens = before ++ (offset, .integer negative digits) :: after ∧
        s.stepAll text before = .ok s' ∧ s'.takesValue = true ∧ Number.maxDigits < digits.length ∧ n = digits.length := by
  induction tokens generalizing s with
  | nil => simp [run, Error.at]
  | cons token rest ih =>
    obtain ⟨offset, t⟩ := token
    rcases run_cons text s offset t rest with ⟨v, rfl, rfl, hrun⟩ | hrun
    · rw [hrun]
      constructor
      · exact fun h => nomatch h
      · rintro ⟨before, o, negative, digits, after, s', he, hs, -⟩
        cases before with
        | nil => cases he
        | cons b before =>
          cases he
          nomatch hs
    · rw [hrun]
      constructor
      · intro h
        cases hstep : s.step text offset t with
        | error e =>
          rw [hstep] at h
          obtain rfl := Except.error.inj h
          obtain ⟨htakes, negative, digits, rfl, hlong, rfl⟩ := step_eq_integerTooLong.1 hstep
          exact ⟨[], offset, negative, digits, rest, s, rfl, rfl, htakes, hlong, rfl⟩
        | ok s₁ =>
          rw [hstep] at h
          obtain ⟨before, o, negative, digits, after, s', rfl, hs, hrest⟩ := ih.1 h
          refine ⟨(offset, t) :: before, o, negative, digits, after, s', rfl, ?_, hrest⟩
          rw [stepAll, hstep]
          exact hs
      · rintro ⟨before, o, negative, digits, after, s', he, hs, htakes, hlong, rfl⟩
        cases before with
        | nil =>
          cases he
          cases hs
          rw [step_eq_integerTooLong.2 ⟨htakes, negative, digits, rfl, hlong, rfl⟩]
          rfl
        | cons b before =>
          cases he
          rw [stepAll] at hs
          cases hstep : s.step text offset t with
          | error e =>
            rw [hstep] at hs
            nomatch hs
          | ok s₁ =>
            rw [hstep] at hs
            exact ih.2 ⟨before, o, negative, digits, after, s', rfl, hs, htakes, hlong, rfl⟩

end State

/-- A text that starts with a byte order mark starts no token. -/
theorem scan_byteOrderMark (rest : List Char) : scan ('\uFEFF' :: rest) = [(0, .junk)] := by
  rw [scan, scanFrom, if_neg (by decide)]
  have hp : punctuation? '\uFEFF' = none := by decide
  have hw : scanWord ('\uFEFF' :: rest) = none := by
    simp [scanWord, words, scanUnsigned, wholePart, Number.isDigit]
  rw [hp, hw]
  simp

/-- A text is refused for an integer of too many digits exactly when it meets one. -/
theorem exists_read_integerTooLong_iff {text : List Char} :
    (∃ n, read text = .error (.integerTooLong n)) ↔ MeetsLongInteger text := by
  rw [read]
  by_cases hmark : text.head? = some '\uFEFF'
  · rw [if_pos hmark]
    obtain ⟨rest, rfl⟩ : ∃ rest, text = '\uFEFF' :: rest := by
      cases text with
      | nil => nomatch hmark
      | cons c rest => exact ⟨rest, by rw [Option.some.inj hmark]⟩
    constructor
    · rintro ⟨n, h⟩
      nomatch h
    · rintro ⟨before, o, negative, digits, after, s, he, -⟩
      rw [scan_byteOrderMark] at he
      cases before with
      | nil => nomatch he
      | cons b before => cases before <;> nomatch he
  · rw [if_neg hmark]
    constructor
    · rintro ⟨n, h⟩
      obtain ⟨before, o, negative, digits, after, s, he, hs, htakes, hlong, -⟩ := State.run_eq_integerTooLong.1 h
      exact ⟨before, o, negative, digits, after, s, he, hs, htakes, hlong⟩
    · rintro ⟨before, o, negative, digits, after, s, he, hs, htakes, hlong⟩
      exact ⟨_, State.run_eq_integerTooLong.2 ⟨before, o, negative, digits, after, s, he, hs, htakes, hlong, rfl⟩⟩

/-! ## A text of digits -/

theorem scanWord_replicate (m : Nat) :
    scanWord (List.replicate (m + 1) '1') = some (.integer false (List.replicate (m + 1) '1'), m + 1) := by
  have hwords : words.find? (·.1.isPrefixOf (List.replicate (m + 1) '1')) = none := by
    rw [List.replicate_succ]
    simp [words]
  have hdigit : Number.isDigit '1' = true := by decide
  have hwhole : wholePart (List.replicate (m + 1) '1') = List.replicate (m + 1) '1' := by
    rw [List.replicate_succ, wholePart, List.takeWhile_cons, if_pos hdigit, List.takeWhile_replicate, if_pos hdigit]
    rintro rest ⟨⟩
  have hunsigned : scanUnsigned false (List.replicate (m + 1) '1') =
      some (.integer false (List.replicate (m + 1) '1'), m + 1) := by
    rw [scanUnsigned, hwhole]
    simp [fractionPart, exponentPart, exponentLength]
  rw [scanWord, hwords]
  · exact hunsigned
  · intro rest he
    rw [List.replicate_succ] at he
    nomatch he

/-- A text of too many digits meets an integer of too many digits. -/
theorem meetsLongInteger_replicate {n : Nat} (h : Number.maxDigits < n) : MeetsLongInteger (List.replicate n '1') := by
  obtain ⟨m, rfl⟩ : ∃ m, n = m + 1 := ⟨n - 1, by omega⟩
  have hscan : ∃ after, scan (List.replicate (m + 1) '1') = (0, .integer false (List.replicate (m + 1) '1')) :: after := by
    have hword := scanWord_replicate m
    rw [List.replicate_succ] at hword ⊢
    rw [scan, scanFrom, if_neg (by decide), show punctuation? '1' = none by decide, hword]
    exact ⟨_, rfl⟩
  obtain ⟨after, hscan⟩ := hscan
  exact ⟨[], 0, false, _, after, .start, hscan, rfl, rfl, by rwa [List.length_replicate]⟩

end Json

/-! ## Files -/

/-- A path to a file whose text meets an integer of too many digits. -/
def MeetsLongInteger (fs : Files.FileSystem) (path : Path) : Prop :=
  ∃ text, fs.text? path = .ok text ∧ Json.MeetsLongInteger text

/-- A JSON file has a value, or something is wrong with it, exactly when it meets no integer of too many digits. -/
theorem exists_loadJson_iff {fs : Files.FileSystem} {path : Path} (hnul : '\x00' ∉ path.text.toList) :
    (∃ loaded, loadJson fs path = .ok loaded) ↔ ¬MeetsLongInteger fs path := by
  rw [loadJson, if_neg (by simpa using hnul), MeetsLongInteger]
  cases ht : fs.text? path with
  | error e => simp
  | ok text =>
    simp only [Except.ok.injEq, exists_eq_left', ← Json.exists_read_integerTooLong_iff]
    cases hr : Json.read text with
    | ok v => simp
    | error e => cases e <;> simp

/-- The map of a JSON file is there, or something is wrong with it, when the file has been loaded. -/
theorem exists_loadJsonMap_iff {fs : Files.FileSystem} {path : Path} :
    (∃ loaded, loadJsonMap fs path = .ok loaded) ↔ ∃ loaded, loadJson fs path = .ok loaded := by
  rw [loadJsonMap]
  cases loadJson fs path <;> simp [Except.map]

/-- Octets that are all the same digit are text. -/
theorem decode_replicate (n : Nat) : Text.decode (List.replicate n 49) = .ok (List.replicate n '1') := by
  have key : ∀ position, Text.decodeFrom position none (List.replicate n 49) = .ok (List.replicate n '1') := by
    induction n with
    | zero => exact fun _ => rfl
    | succ n ih =>
      intro position
      rw [List.replicate_succ, List.replicate_succ, Text.decodeFrom]
      have hlead : Text.Utf8Lead.of position 49 = .whole '1' := rfl
      rw [hlead]
      dsimp only
      rw [ih (position + 1)]
      rfl
  exact key 0

theorem unifyNewlines_replicate (n : Nat) : Text.unifyNewlines (List.replicate n '1') = List.replicate n '1' := by
  induction n with
  | zero => rfl
  | succ n ih =>
    rw [List.replicate_succ, Text.unifyNewlines, ih, if_neg (by decide)]
    intro rest hc
    nomatch hc

end WorkspaceLint
