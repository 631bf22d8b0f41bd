import WorkspaceLint.DataFile
import WorkspaceLint.Proofs.JsonReports
import WorkspaceLint.Proofs.LineEnds
import WorkspaceLint.Proofs.TextSearch

/-!
# Reports for programs are loaded from files

A report that is written to a file in UTF-8 is what is loaded from the file. Its octets are decoded (`decode_encode`), and no line
end in it is changed on the way: the only line ends that are read as another one begin with a carriage return, which is never written
as itself (`return_not_mem_json`). So the value of the file is the list of the diagnostics, whatever characters their locations and
messages are made of (`json_decodes`).
-/

namespace WorkspaceLint

open Files (FileSystem)

namespace Text

/-! ## Text in UTF-8 -/

/-- The octets of a text in UTF-8. -/
def encode (s : List Char) : List UInt8 := s.flatMap String.utf8EncodeChar

section Decoding

variable {position : Nat} {p : Utf8Pending} {b : UInt8} (rest : List UInt8)

/-- The last octet of a sequence completes its character. -/
theorem decodeFrom_last (hmore : p.more = 0) (hb : p.low ≤ b.toNat ∧ b.toNat ≤ p.high) :
    decodeFrom position (some p) (b :: rest) =
      (decodeFrom (position + 1) none rest).map (Char.ofNat (p.bits * 0x40 + b.toNat % 0x40) :: ·) := by
  simp only [decodeFrom, if_pos hb, hmore]

/-- An octet before the last one of a sequence adds its bits. -/
theorem decodeFrom_more {more : Nat} (hmore : p.more = more + 1) (hb : p.low ≤ b.toNat ∧ b.toNat ≤ p.high) :
    decodeFrom position (some p) (b :: rest) = decodeFrom (position + 1)
      (some { p with taken := p.taken + 1, bits := p.bits * 0x40 + b.toNat % 0x40, more, low := 0x80, high := 0xBF }) rest := by
  simp only [decodeFrom, if_pos hb, hmore]

/-- An octet that starts a longer sequence waits for the others. -/
theorem decodeFrom_lead (h : Utf8Lead.of position b = .part p) :
    decodeFrom position none (b :: rest) = decodeFrom (position + 1) (some p) rest := by
  simp only [decodeFrom, h]

/-! The first octets of sequences of two, three and four, and what they start. The second octet is bounded where a smaller one would
make the sequence too long for its character, or a greater one would make it no character. -/

theorem toNat_octet (n : Nat) : (UInt8.ofNat n).toNat = n % 256 := UInt8.toNat_ofNat'

theorem lead_two {n : Nat} (h : 127 < n) (h' : n ≤ 2047) (position : Nat) :
    Utf8Lead.of position (UInt8.ofNat (n / 64 % 32 + 192)) =
      .part ⟨position, UInt8.ofNat (n / 64 % 32 + 192), 1, n / 64, 0, 0x80, 0xBF⟩ := by
  have hbits : (n / 64 % 32 + 192) % 256 % 32 = n / 64 := by omega
  unfold Utf8Lead.of
  simp only [toNat_octet, hbits]
  rw [if_neg (by omega), if_neg (by omega), if_pos (by omega)]

theorem lead_three {n : Nat} (h : n ≤ 65535) (position : Nat) :
    Utf8Lead.of position (UInt8.ofNat (n / 4096 % 16 + 224)) =
      .part ⟨position, UInt8.ofNat (n / 4096 % 16 + 224), 1, n / 4096, 1,
        if n / 4096 = 0 then 0xA0 else 0x80, if n / 4096 = 13 then 0x9F else 0xBF⟩ := by
  have hbits : (n / 4096 % 16 + 224) % 256 % 16 = n / 4096 := by omega
  have hlow : (n / 4096 % 16 + 224) % 256 = 0xE0 ↔ n / 4096 = 0 := by omega
  have hhigh : (n / 4096 % 16 + 224) % 256 = 0xED ↔ n / 4096 = 13 := by omega
  unfold Utf8Lead.of
  simp only [toNat_octet, hbits, hlow, hhigh]
  rw [if_neg (by omega), if_neg (by omega), if_neg (by omega), if_pos (by omega)]

theorem lead_four {n : Nat} (h : n < 0x110000) (position : Nat) :
    Utf8Lead.of position (UInt8.ofNat (n / 262144 % 8 + 240)) =
      .part ⟨position, UInt8.ofNat (n / 262144 % 8 + 240), 1, n / 262144, 2,
        if n / 262144 = 0 then 0x90 else 0x80, if n / 262144 = 4 then 0x8F else 0xBF⟩ := by
  have hbits : (n / 262144 % 8 + 240) % 256 % 8 = n / 262144 := by omega
  have hlow : (n / 262144 % 8 + 240) % 256 = 0xF0 ↔ n / 262144 = 0 := by omega
  have hhigh : (n / 262144 % 8 + 240) % 256 = 0xF4 ↔ n / 262144 = 4 := by omega
  unfold Utf8Lead.of
  simp only [toNat_octet, hbits, hlow, hhigh]
  rw [if_neg (by omega), if_neg (by omega), if_neg (by omega), if_neg (by omega), if_pos (by omega)]

/-- A character is decoded from its octets, wherever they stand. -/
theorem decodeFrom_utf8EncodeChar (position : Nat) (c : Char) : ∃ position',
    decodeFrom position none (String.utf8EncodeChar c ++ rest) = (decodeFrom position' none rest).map (c :: ·) := by
  have hvalid : c.toNat < 0xD800 ∨ 0xDFFF < c.toNat ∧ c.toNat < 0x110000 := c.valid
  have hchar : ∀ n, n = c.toNat → Char.ofNat n = c := fun n hn => by rw [hn, Char.ofNat_toNat]
  unfold String.utf8EncodeChar
  simp only [Char.toNat_val]
  split_ifs with h1 h2 h3
  · have hlead : Utf8Lead.of position (UInt8.ofNat c.toNat) = .whole c := by
      unfold Utf8Lead.of
      rw [toNat_octet, if_pos (by omega), hchar _ (by omega)]
    exact ⟨position + 1, by simp [decodeFrom, hlead]⟩
  · refine ⟨position + 1 + 1, ?_⟩
    simp only [List.cons_append, List.nil_append]
    rw [decodeFrom_lead _ (lead_two (by omega) h2 position),
      decodeFrom_last _ rfl (by simp only [toNat_octet]; omega),
      hchar _ (by simp only [toNat_octet]; omega)]
  · refine ⟨position + 1 + 1 + 1, ?_⟩
    simp only [List.cons_append, List.nil_append]
    rw [decodeFrom_lead _ (lead_three h3 position),
      decodeFrom_more _ rfl (by simp only [toNat_octet]; split_ifs <;> omega),
      decodeFrom_last _ rfl (by simp only [toNat_octet]; omega),
      hchar _ (by simp only [toNat_octet]; omega)]
  · refine ⟨position + 1 + 1 + 1 + 1, ?_⟩
    simp only [List.cons_append, List.nil_append]
    rw [decodeFrom_lead _ (lead_four (by omega) position),
      decodeFrom_more _ rfl (by simp only [toNat_octet]; split_ifs <;> omega),
      decodeFrom_more _ rfl (by simp only [toNat_octet]; omega),
      decodeFrom_last _ rfl (by simp only [toNat_octet]; omega),
      hchar _ (by simp only [toNat_octet]; omega)]

end Decoding

/-- A text is decoded from its octets, wherever they stand. -/
theorem decodeFrom_encode (s : List Char) (position : Nat) : decodeFrom position none (encode s) = .ok s := by
  induction s generalizing position with
  | nil => rfl
  | cons c s ih =>
    obtain ⟨position', hc⟩ := decodeFrom_utf8EncodeChar (encode s) position c
    have hcons : encode (c :: s) = String.utf8EncodeChar c ++ encode s := List.flatMap_cons
    rw [hcons, hc, ih]
    rfl

/-- What is written in UTF-8 is decoded as it was. -/
theorem decode_encode (s : List Char) : decode (encode s) = .ok s := decodeFrom_encode s 0

end Text

namespace Json

/-! ## Carriage returns -/

/-- The digits of a control character are no carriage return. -/
theorem return_not_mem_hexPadded (n : Nat) : '\r' ∉ Text.hexPadded 4 n := by
  have hdigit : ∀ m < 16, Text.hexDigit m ≠ '\r' := by decide
  have hmod (m : Nat) : '\r' ≠ Text.hexDigit (m % 16) := (hdigit _ (Nat.mod_lt m (by decide))).symm
  rw [Text.hexPadded_four]
  simp [hmod]

/-- No character is written with a carriage return. -/
theorem return_not_mem_escapeChar (c : Char) : '\r' ∉ escapeChar c := by
  rcases escapeChar_cases c with ⟨-, -, hcontrol, he⟩ | ⟨letter, -, hletter, he⟩ | ⟨-, he⟩
  · rw [he, List.mem_singleton]
    rintro rfl
    exact hcontrol (by decide)
  · rw [he]
    have hne : letter ≠ '\r' := by
      rintro rfl
      nomatch hletter
    simp [hne.symm]
  · rw [he]
    simp [return_not_mem_hexPadded]

theorem return_not_mem_stringLiteral (s : String) : '\r' ∉ (stringLiteral s).toList := by
  unfold stringLiteral
  simp [return_not_mem_escapeChar]

theorem return_not_mem_objectText (members : List (String × String)) : '\r' ∉ (objectText members).toList := by
  have hmember : ∀ t ∈ members.map (String.toList ∘ memberText), '\r' ∉ t := by
    intro t ht
    obtain ⟨m, -, rfl⟩ := List.mem_map.1 ht
    simp [memberText, return_not_mem_stringLiteral]
  rw [objectText_eq]
  simp [Text.not_mem_intercalate _ hmember]

/-- A list of objects of texts holds no carriage return, whatever the texts hold. -/
theorem return_not_mem_listText (objects : List (List (String × String))) : '\r' ∉ (listText objects).toList := by
  have hobject : ∀ t ∈ objects.map (String.toList ∘ objectText), '\r' ∉ t := by
    intro t ht
    obtain ⟨o, -, rfl⟩ := List.mem_map.1 ht
    exact return_not_mem_objectText o
  unfold listText
  simp [Text.not_mem_intercalate _ hobject]

end Json

/-! ## Reports -/

/-- A file that holds a text without carriage returns in UTF-8 is read as this text. -/
theorem Files.FileSystem.text?_of_encode {fs : FileSystem} {path : Path} {s : List Char}
    (h : fs.octets? path = .ok (Text.encode s)) (hreturn : '\r' ∉ s) : fs.text? path = .ok s := by
  unfold text?
  rw [h]
  simp only [Text.decode_encode, Text.unifyNewlines_eq_self hreturn]

/-- What stands under a key of a map of texts. -/
theorem Value.get?_texts (members : List (String × String)) (key : String) :
    (Value.map (members.map fun m => (.text m.1, .text m.2))).get? key = (members.lookup key).map .text := by
  induction members with
  | nil => rfl
  | cons m members ih =>
    obtain ⟨k, v⟩ := m
    have hsame : (Value.text k).sameKey (.text key) = (key == k) := Bool.beq_comm
    simp only [get?, List.map_cons, List.find?_cons, List.lookup_cons, hsame] at ih ⊢
    cases key == k with
    | true => rfl
    | false => exact ih

namespace Report

/-- A report on diagnostics is read as the list of their objects, in their order. The object of a diagnostic has its kind, its
location and its message under their keys, and nothing under other keys. And a file that holds the report in UTF-8 is loaded as that
list. -/
theorem json_decodes {ds : List Diagnostic} (h : ds ≠ []) :
    Json.read (json ds).toList = .ok (.list (ds.map value)) ∧
      (∀ d ∈ ds, ∀ key, (value d).get? key = ((members d).lookup key).map .text) ∧
      ∀ (fs : FileSystem) (path : Path), '\x00' ∉ path.text.toList →
        fs.octets? path = .ok (Text.encode (json ds).toList) → loadJson fs path = .ok (.ok (.list (ds.map value))) := by
  have hlist : json ds = Json.listText (ds.map members) := if_neg h
  have hread : Json.read (json ds).toList = .ok (.list (ds.map value)) := by
    have hempty : "".toList.all Json.isSpace = true := rfl
    have hspaces := Json.read_listText (ds.map members) hempty
    rw [String.append_empty, List.map_map] at hspaces
    rw [hlist]
    exact hspaces
  refine ⟨hread, ?_, ?_⟩
  · intro d _ key
    exact Value.get?_texts (members d) key
  · intro fs path hnul hoctets
    have hreturn : '\r' ∉ (json ds).toList := hlist ▸ Json.return_not_mem_listText (ds.map members)
    unfold loadJson
    rw [if_neg (by simpa using hnul), Files.FileSystem.text?_of_encode hoctets hreturn]
    dsimp only
    rw [hread]

/-- A diagnostic whose texts hold what is written with a backslash, and characters of two and four octets. -/
def crooked : Diagnostic :=
  { kind := .missingReferencedFile, location := "w\\\x22\r\n", message := "\x00\x1b\x7f/é\u2028😀" }

/-- A file system that holds the report on that diagnostic. -/
def reported : FileSystem where
  entries := [("report.json", .file (Text.encode (json [crooked]).toList))]

/-- The report on that diagnostic is read, and it is loaded from its file. -/
theorem json_decodes_crooked :
    Json.read (json [crooked]).toList = .ok (.list [value crooked]) ∧
      (value crooked).get? "location" = some (.text "w\\\x22\r\n") ∧ (value crooked).get? "names_location" = none ∧
      loadJson reported (.absolute ["report.json"]) = .ok (.ok (.list [value crooked])) := by
  obtain ⟨hread, hobject, hload⟩ := json_decodes (List.cons_ne_nil crooked [])
  have hfile : reported.octets? (.absolute ["report.json"]) = .ok (Text.encode (json [crooked]).toList) := rfl
  refine ⟨hread, ?_, ?_, hload reported (.absolute ["report.json"]) (by decide) hfile⟩
  · rw [hobject crooked (by simp)]
    rfl
  · rw [hobject crooked (by simp)]
    rfl

end Report

end WorkspaceLint
