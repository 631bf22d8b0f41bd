import WorkspaceLint.Text.CaseTable

/-!
# Upper and lower case

The full case mappings, on lists of characters. A character may go to several; the capital sigma goes to its final form when a
character that carries case stands before it and none stands after it, characters that are passed over apart.
-/

namespace WorkspaceLint.Text

/-- Where the first run that covers a character moves it; a character that no run covers stays. -/
def moveBy (runs : List CaseRun) (c : Char) : Char :=
  match runs.find? (·.covers c.toNat) with
  | some r => Char.ofNat (r.move c.toNat)
  | none => c

/-- A case mapping by expansions first and runs second. -/
def mapCase (expansions : List (Nat × List Nat)) (runs : List CaseRun) (c : Char) : List Char :=
  match expansions.lookup c.toNat with
  | some ns => ns.map Char.ofNat
  | none => [moveBy runs c]

/-- The lower case of a character that stands alone. -/
def lowerChar (c : Char) : List Char := mapCase lowerExpansions lowerRuns c

/-- The upper case of a character. -/
def upperChar (c : Char) : List Char := mapCase upperExpansions upperRuns c

/-- A character that is passed over in the context of a capital sigma. -/
def isCaseIgnorable (c : Char) : Bool := caseIgnorableRanges.contains c

/-- A character that carries case and is not passed over. -/
def isCased (c : Char) : Bool := casedRanges.contains c

/-- Whether the first character that is not passed over carries case. -/
def startsCased (s : List Char) : Bool := (s.dropWhile isCaseIgnorable).head?.any isCased

/-- The lower case of a capital sigma between the text before it (last character first) and the text after it. -/
def lowerSigma (before after : List Char) : Char :=
  if startsCased before && !startsCased after then 'ς' else 'σ'

/-- The lower case of a text that stands after another one, which is given last character first. -/
def lowerAfter (before : List Char) : List Char → List Char
  | [] => []
  | c :: rest =>
    (if c = 'Σ' then [lowerSigma before rest] else lowerChar c) ++ lowerAfter (c :: before) rest

/-- The lower case of a text. -/
def lower (s : List Char) : List Char := lowerAfter [] s

/-- The upper case of a text. -/
def upper (s : List Char) : List Char := s.flatMap upperChar

/-- The lower case of a string. -/
def lowered (s : String) : String := String.ofList (lower s.toList)

/-- The upper case of a string. -/
def uppered (s : String) : String := String.ofList (upper s.toList)

end WorkspaceLint.Text
