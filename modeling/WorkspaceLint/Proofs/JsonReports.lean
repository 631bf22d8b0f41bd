import WorkspaceLint.Proofs.LongIntegers
import WorkspaceLint.Report.Data

/-!
# Reports for programs are read back

What is written as JSON is read as JSON, whatever characters the texts in it are made of. `State.Reads` says that characters take
the reader from one state to another whatever follows them; it holds of a text between quotes, and so of members, objects and
lists, piece by piece. A report with diagnostics is the list of their kinds, locations and messages (`read_json`), and two reports are
the same exactly when these are (`json_eq_iff`).
-/

namespace WorkspaceLint

namespace Text

theorem hexValue?_hexDigit {n : Nat} (h : n < 16) : hexValue? (hexDigit n) = some n := by
  have hall : ∀ n < 16, hexValue? (hexDigit n) = some n := by decide
  exact hall n h

theorem hexPadded_four (n : Nat) :
    hexPadded 4 n = [hexDigit (n / 4096 % 16), hexDigit (n / 256 % 16), hexDigit (n / 16 % 16), hexDigit (n % 16)] := by
  simp [hexPadded, Nat.div_div_eq_div_mul]

end Text

namespace Json

/-! ## Texts between quotes -/

section Strings

variable (opening taken : Nat) (code : Option Nat) (read rest : List Char)

/-- Four digits after a backslash and the letter `u` are read as the number that they write. -/
theorem scanString_hexPadded {n : Nat} (h : n < 0x10000) (u : Nat) :
    scanString opening (.code none u 0 0) taken read (Text.hexPadded 4 n ++ rest) =
      scanString opening (closeCode none u n read).1 (taken + 4) (closeCode none u n read).2 rest := by
  have hvalue (m : Nat) : Text.hexValue? (Text.hexDigit (m % 16)) = some (m % 16) :=
    Text.hexValue?_hexDigit (Nat.mod_lt m (by decide))
  have hn : (((0 * 16 + n / 4096 % 16) * 16 + n / 256 % 16) * 16 + n / 16 % 16) * 16 + n % 16 = n := by omega
  rw [Text.hexPadded_four]
  simp only [List.cons_append, List.nil_append, scanString, hvalue, Nat.reduceAdd, Nat.reduceEqDiff, if_true, if_false, hn]

/-- A character is written as itself, as a letter after a backslash, or by its number. -/
theorem escapeChar_cases (c : Char) :
    (c ≠ '\x22' ∧ c ≠ '\\' ∧ ¬c.toNat < 0x20 ∧ escapeChar c = [c]) ∨
      (∃ letter, letter ≠ 'u' ∧ escaped? letter = some c ∧ escapeChar c = ['\\', letter]) ∨
      (c.toNat < 0x20 ∧ escapeChar c = '\\' :: 'u' :: Text.hexPadded 4 c.toNat) := by
  unfold escapeChar
  split_ifs with hquote hbackslash hn hr ht hb hf hcontrol
  · exact Or.inr (Or.inl ⟨'\x22', by decide, by rw [hquote]; rfl, rfl⟩)
  · exact Or.inr (Or.inl ⟨'\\', by decide, by rw [hbackslash]; rfl, rfl⟩)
  · exact Or.inr (Or.inl ⟨'n', by decide, by rw [hn]; rfl, rfl⟩)
  · exact Or.inr (Or.inl ⟨'r', by decide, by rw [hr]; rfl, rfl⟩)
  · exact Or.inr (Or.inl ⟨'t', by decide, by rw [ht]; rfl, rfl⟩)
  · exact Or.inr (Or.inl ⟨'b', by decide, by rw [hb]; rfl, rfl⟩)
  · exact Or.inr (Or.inl ⟨'f', by decide, by rw [hf]; rfl, rfl⟩)
  · exact Or.inr (Or.inr ⟨hcontrol, rfl⟩)
  · exact Or.inl ⟨hquote, hbackslash, hcontrol, rfl⟩

/-- A character is read back from what is written for it between quotes. -/
theorem scanString_escapeChar (c : Char) : ∃ code',
    scanString opening (.plain code) taken read (escapeChar c ++ rest) =
      scanString opening (.plain code') (taken + (escapeChar c).length) (c :: read) rest := by
  obtain ⟨hquote, hbackslash, hcontrol, he⟩ | ⟨letter, hu, hletter, he⟩ | ⟨hcontrol, he⟩ := escapeChar_cases c
  · exact ⟨none, by simp [he, scanString, hquote, hbackslash, hcontrol]⟩
  · exact ⟨none, by simp [he, scanString, hu, hletter, dropHalf]⟩
  · have hclose (u : Nat) : closeCode none u c.toNat read = (.plain (some u), c :: read) := by
      rw [closeCode, if_neg (by omega), if_neg (by omega), Char.ofNat_toNat]
      rfl
    have hdigits (u : Nat) := scanString_hexPadded opening (taken + 2) read rest (show c.toNat < 0x10000 by omega) u
    have hlength : (Text.hexPadded 4 c.toNat).length = 4 := by rw [Text.hexPadded_four]; rfl
    exact ⟨_, by simp [he, scanString, hdigits, hclose, hlength]; rfl⟩

/-- A text is read back from what is written for it between quotes, up to the quote after it. -/
theorem scanString_literal (s : List Char) :
    scanString opening (.plain code) taken read (s.flatMap escapeChar ++ '\x22' :: rest) =
      .ok (read.reverse ++ s, taken + (s.flatMap escapeChar).length + 1) := by
  induction s generalizing taken code read with
  | nil => simp [scanString]
  | cons c s ih =>
    obtain ⟨code', hc⟩ := scanString_escapeChar opening taken code read (s.flatMap escapeChar ++ '\x22' :: rest) c
    rw [List.flatMap_cons, List.append_assoc, hc, ih]
    simp [Nat.add_assoc]

end Strings

/-! ## Tokens -/

theorem scanFrom_spaces {cs : List Char} (h : cs.all isSpace = true) (offset : Nat) (rest : List Char) :
    scanFrom 0 offset (cs ++ rest) = scanFrom 0 (offset + cs.length) rest := by
  induction cs generalizing offset with
  | nil => rfl
  | cons c cs ih =>
    rw [List.all_cons, Bool.and_eq_true] at h
    rw [List.cons_append, scanFrom, if_pos h.1, ih h.2, List.length_cons, Nat.add_assoc, Nat.add_comm 1]

/-- Characters that have been read are passed over. -/
theorem scanFrom_length (cs : List Char) (offset : Nat) (rest : List Char) :
    scanFrom cs.length offset (cs ++ rest) = scanFrom 0 (offset + cs.length) rest := by
  induction cs generalizing offset with
  | nil => rfl
  | cons c cs ih => rw [List.cons_append, List.length_cons, scanFrom, ih, Nat.add_assoc, Nat.add_comm 1]

theorem scanFrom_punctuation {c : Char} {t : Token} (h : punctuation? c = some t) (offset : Nat) (rest : List Char) :
    scanFrom 0 offset (c :: rest) = (offset, t) :: scanFrom 0 (offset + 1) rest := by
  have hspace : isSpace c = false := by
    by_contra hs
    simp only [Bool.not_eq_false, isSpace, Bool.or_eq_true, beq_iff_eq] at hs
    obtain ((rfl | rfl) | rfl) | rfl := hs <;> nomatch h
  rw [scanFrom, hspace, h]
  rfl

/-- A text between quotes is one token. -/
theorem scanFrom_stringLiteral (s : String) (offset : Nat) (rest : List Char) :
    scanFrom 0 offset ((stringLiteral s).toList ++ rest) =
      (offset, .string s) :: scanFrom 0 (offset + (stringLiteral s).toList.length) rest := by
  have hscan : scanString offset (.plain none) 0 [] (s.toList.flatMap escapeChar ++ '\x22' :: rest) =
      .ok (s.toList, (s.toList.flatMap escapeChar ++ ['\x22']).length) := by
    rw [scanString_literal]
    simp
  have hlist : (stringLiteral s).toList = '\x22' :: (s.toList.flatMap escapeChar ++ ['\x22']) := by simp [stringLiteral]
  have hskip := scanFrom_length (s.toList.flatMap escapeChar ++ ['\x22']) (offset + 1) rest
  rw [List.append_assoc, List.singleton_append] at hskip
  rw [hlist, List.cons_append, List.append_assoc, List.singleton_append, scanFrom, if_neg (by decide),
    show punctuation? '\x22' = none from rfl, if_pos rfl, hscan]
  dsimp only
  rw [hskip, String.ofList_toList, List.length_cons, Nat.add_assoc, Nat.add_comm 1]

/-! ## States of the reader -/

/-- A member of an object of texts. -/
def memberText (m : String × String) : String := "    " ++ stringLiteral m.1 ++ ": " ++ stringLiteral m.2

theorem objectText_eq (members : List (String × String)) :
    objectText members = "  \x7b\n" ++ (",\n".intercalate (members.map memberText) ++ "\n  \x7d") :=
  String.append_assoc

namespace State

variable {s s' s'' : State} {written : String}

/-- A token that is not the end of the text is one step. -/
theorem run_of_step {text : List Char} {offset : Nat} {t : Token} (ht : t ≠ .done) (h : s.step text offset t = .ok s')
    (rest : List (Nat × Token)) : s.run text ((offset, t) :: rest) = s'.run text rest := by
  obtain ⟨v, -, hdone, -⟩ | hrun := run_cons text s offset t rest
  · exact absurd hdone ht
  · rw [hrun, h]
    rfl

/-- What is written takes the reader from one state to another, whatever follows it. -/
def Reads (s : State) (written : String) (s' : State) : Prop :=
  ∀ text offset rest,
    s.run text (scanFrom 0 offset (written.toList ++ rest)) = s'.run text (scanFrom 0 (offset + written.toList.length) rest)

namespace Reads

theorem append {more : String} (h : Reads s written s') (h' : Reads s' more s'') : Reads s (written ++ more) s'' := by
  intro text offset rest
  rw [String.toList_append, List.append_assoc, h, h', List.length_append, Nat.add_assoc]

theorem spaces (h : written.toList.all isSpace = true) : Reads s written s := by
  intro text offset rest
  rw [scanFrom_spaces h]

/-- A text with one character that is no space is the token of that character. -/
theorem punctuation {c : Char} {t : Token} (h : written.toList.filter (!isSpace ·) = [c]) (hc : punctuation? c = some t)
    (hs : ∀ text offset, s.step text offset t = .ok s') : Reads s written s' := by
  intro text offset rest
  obtain ⟨before, after, hw, hbefore, -, hafter⟩ := List.filter_eq_cons_iff.1 h
  have hb : before.all isSpace = true := by simpa using hbefore
  have ha : after.all isSpace = true := by simpa using hafter
  have ht : t ≠ .done := by
    rintro rfl
    unfold punctuation? at hc
    split at hc <;> nomatch hc
  rw [hw, List.append_assoc, List.cons_append, scanFrom_spaces hb, scanFrom_punctuation hc, run_of_step ht (hs _ _),
    scanFrom_spaces ha, List.length_append, List.length_cons]
  congr 2
  omega

theorem literal {v : String} (hs : ∀ text offset, s.step text offset (.string v) = .ok s') : Reads s (stringLiteral v) s' := by
  intro text offset rest
  have ht : Token.string v ≠ .done := nofun
  rw [scanFrom_stringLiteral, run_of_step ht (hs _ _)]

/-- What takes the reader from its start to a whole value is that value. -/
theorem read_eq {v : Value} (h : Reads start written ⟨.after v, []⟩) (hmark : written.toList.head? ≠ some '\uFEFF') :
    read written.toList = .ok v := by
  have hrun := h written.toList 0 []
  rw [List.append_nil] at hrun
  rw [read, if_neg hmark, scan, hrun]
  rfl

/-! ## Members, objects and lists -/

variable {frames : List Frame} {entries : List (Value × Value)}

/-- A member, where a key may stand after other entries. -/
theorem memberText (hs : ∀ text offset k, s.step text offset (.string k) = .ok ⟨.colon entries k, frames⟩)
    (m : String × String) : Reads s (Json.memberText m) ⟨.after (.text m.2), .map entries m.1 :: frames⟩ := by
  have hkey : Reads s ("    " ++ stringLiteral m.1) ⟨.colon entries m.1, frames⟩ :=
    (spaces rfl).append (literal fun text offset => hs text offset m.1)
  have hcolon : Reads ⟨.colon entries m.1, frames⟩ ": " ⟨.value, .map entries m.1 :: frames⟩ :=
    punctuation rfl rfl fun _ _ => rfl
  exact (hkey.append hcolon).append (literal fun _ _ => rfl)

end Reads

end State

/-- The entries of a map with members put in one after another. -/
def putMembers (entries : List (Value × Value)) (members : List (String × String)) : List (Value × Value) :=
  members.foldl (fun entries m => Value.putEntry (.text m.1) (.text m.2) entries) entries

/-- The map that members make. -/
def objectValue (members : List (String × String)) : Value := .map (putMembers [] members)

namespace State.Reads

variable {s : State} {frames : List Frame} {entries : List (Value × Value)}

/-- Members with commas between them and the brace that ends their object. -/
theorem members (m : String × String) (ms : List (String × String))
    (hs : ∀ text offset k, s.step text offset (.string k) = .ok ⟨.colon entries k, frames⟩) :
    Reads s (",\n".intercalate ((m :: ms).map Json.memberText) ++ "\n  \x7d")
      ⟨.after (.map (putMembers entries (m :: ms))), frames⟩ := by
  induction ms generalizing s entries m with
  | nil =>
    rw [List.map_singleton, String.intercalate_singleton]
    exact (memberText hs m).append (punctuation rfl rfl fun _ _ => rfl)
  | cons next ms ih =>
    have hcomma : Reads ⟨.after (.text m.2), .map entries m.1 :: frames⟩ ",\n"
        ⟨.key (Value.putEntry (.text m.1) (.text m.2) entries), frames⟩ := punctuation rfl rfl fun _ _ => rfl
    rw [List.map_cons, List.map_cons, String.intercalate_cons_cons, ← List.map_cons, String.append_assoc]
    exact ((memberText hs m).append hcomma).append (ih next fun _ _ _ => rfl)

/-- An object, where a value may stand. -/
theorem objectText {members : List (String × String)}
    (hs : ∀ text offset, s.step text offset .leftBrace = .ok ⟨.firstKey, frames⟩) :
    Reads s (objectText members) ⟨.after (objectValue members), frames⟩ := by
  have hopen : Reads s "  \x7b\n" ⟨.firstKey, frames⟩ := punctuation rfl rfl hs
  rw [objectText_eq]
  cases members with
  | nil => exact hopen.append (punctuation rfl rfl fun _ _ => rfl)
  | cons m ms => exact hopen.append (Reads.members m ms fun _ _ _ => rfl)

/-- Objects with commas between them and the bracket that ends their list. -/
theorem objects {items : List Value} (o : List (String × String)) (os : List (List (String × String)))
    (hs : ∀ text offset, s.step text offset .leftBrace = .ok ⟨.firstKey, .list items :: frames⟩) :
    Reads s (",\n".intercalate ((o :: os).map Json.objectText) ++ "\n]")
      ⟨.after (.list (items.reverse ++ (o :: os).map objectValue)), frames⟩ := by
  induction os generalizing s items o with
  | nil =>
    have hclose : Reads ⟨.after (objectValue o), .list items :: frames⟩ "\n]"
        ⟨.after (.list (objectValue o :: items).reverse), frames⟩ := punctuation rfl rfl fun _ _ => rfl
    rw [List.map_singleton, String.intercalate_singleton, List.map_singleton, ← List.reverse_cons]
    exact (objectText hs).append hclose
  | cons next os ih =>
    have hcomma : Reads ⟨.after (objectValue o), .list items :: frames⟩ ",\n"
        ⟨.value, .list (objectValue o :: items) :: frames⟩ := punctuation rfl rfl fun _ _ => rfl
    have hnext : ∀ text offset, step text ⟨.value, .list (objectValue o :: items) :: frames⟩ offset .leftBrace =
        .ok ⟨.firstKey, .list (objectValue o :: items) :: frames⟩ := fun _ _ => rfl
    have hrest := ih next hnext
    rw [List.reverse_cons, List.append_assoc, List.singleton_append, ← List.map_cons] at hrest
    rw [List.map_cons, List.map_cons, String.intercalate_cons_cons, ← List.map_cons, String.append_assoc]
    exact ((objectText hs).append hcomma).append hrest

end State.Reads

/-- A list of objects of texts is read back, with whatever spaces after it. -/
theorem read_listText (objects : List (List (String × String))) {after : String} (h : after.toList.all isSpace = true) :
    read (listText objects ++ after).toList = .ok (.list (objects.map objectValue)) := by
  have hopen : State.Reads .start "[\n" ⟨.firstItem, [.list []]⟩ := .punctuation rfl rfl fun _ _ => rfl
  have hlist : State.Reads .start (listText objects) ⟨.after (.list (objects.map objectValue)), []⟩ := by
    rw [listText, String.append_assoc]
    cases objects with
    | nil => exact hopen.append (.punctuation rfl rfl fun _ _ => rfl)
    | cons o os =>
      have hfirst : ∀ text offset, State.step text ⟨.firstItem, [.list []]⟩ offset .leftBrace =
          .ok ⟨.firstKey, [.list []]⟩ := fun _ _ => rfl
      exact hopen.append (.objects o os hfirst)
  refine (hlist.append (.spaces h)).read_eq ?_
  simp [listText]

end Json

namespace Report

/-- What a diagnostic is in a report for programs. -/
def value (d : Diagnostic) : Value :=
  .map [(.text "kind", .text d.kind.label), (.text "location", .text d.location), (.text "message", .text d.message)]

/-- A report is one JSON text that is read back as its diagnostics in their order. -/
theorem read_json {ds : List Diagnostic} (h : ds ≠ []) : Json.read (json ds ++ "\n").toList = .ok (.list (ds.map value)) := by
  rw [json, if_neg h, Json.read_listText _ rfl, List.map_map]
  rfl

/-! ## What a report tells apart -/

/-- What a report for programs shows of a diagnostic. -/
def shown (d : Diagnostic) : DiagnosticKind × String × String := (d.kind, d.location, d.message)

/-- What an object of a report shows: the kind that its label names, the location and the message. -/
def shownIn? : Value → Option (DiagnosticKind × String × String)
  | .map [(_, .text label), (_, .text location), (_, .text message)] =>
    (DiagnosticKind.ofLabel? label).map fun kind => (kind, location, message)
  | _ => none

/-- The object of a diagnostic shows what there is to show of it. -/
theorem shownIn?_value (d : Diagnostic) : shownIn? (value d) = some (shown d) := by
  rw [value, shownIn?, DiagnosticKind.ofLabel?_label]
  rfl

theorem json_eq_empty_iff {ds : List Diagnostic} : json ds = "" ↔ ds = [] := by
  rw [json]
  split
  · rename_i h
    simp [h]
  · rename_i h
    simp [h, Json.listText]

/-- Two reports are the same exactly when their diagnostics are of the same kinds, at the same locations and with the same messages,
one by one. -/
theorem json_eq_iff {ds es : List Diagnostic} : json ds = json es ↔ ds.map shown = es.map shown := by
  have hmembers : ∀ ds : List Diagnostic, ds.map members =
      (ds.map shown).map fun d => [("kind", d.1.label), ("location", d.2.1), ("message", d.2.2)] := by
    intro ds
    rw [List.map_map]
    rfl
  constructor
  · intro h
    by_cases hds : ds = []
    · have hes : es = [] := json_eq_empty_iff.1 (h.symm.trans (json_eq_empty_iff.2 hds))
      rw [hds, hes]
    · have hes : es ≠ [] := fun hes => hds (json_eq_empty_iff.1 (h.trans (json_eq_empty_iff.2 hes)))
      have hread := (read_json hds).symm.trans ((congrArg (fun s => Json.read (s ++ "\n").toList) h).trans (read_json hes))
      simp only [Except.ok.injEq, Value.list.injEq] at hread
      have hvalues : ∀ ds : List Diagnostic, (ds.map value).filterMap shownIn? = ds.map shown := fun ds => by
        simp only [List.filterMap_map, Function.comp_def, shownIn?_value, List.filterMap_eq_map']
      rw [← hvalues, hread, hvalues]
  · intro h
    have hempty : ds = [] ↔ es = [] := by rw [← List.map_eq_nil_iff, h, List.map_eq_nil_iff]
    simp only [json, hempty, hmembers, h]

end Report

end WorkspaceLint
