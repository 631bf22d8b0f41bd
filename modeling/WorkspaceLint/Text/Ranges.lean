/-!
# Sets of code points

A set of characters as a list of closed ranges of code points: the form in which the tables of character properties are kept.
-/

namespace WorkspaceLint.Text

/-- Closed ranges of code points. -/
abbrev Ranges := List (Nat × Nat)

/-- Whether a character lies in one of the ranges. -/
def Ranges.contains (rs : Ranges) (c : Char) : Bool :=
  rs.any fun r => r.1 ≤ c.toNat && c.toNat ≤ r.2

theorem Ranges.contains_iff (rs : Ranges) (c : Char) :
    rs.contains c = true ↔ ∃ r ∈ rs, r.1 ≤ c.toNat ∧ c.toNat ≤ r.2 := by
  simp [Ranges.contains]

/-- A set whose ranges are apart from the letters and digits of ASCII holds none of them. -/
theorem Ranges.not_contains_of_isAlphanum {rs : Ranges}
    (hapart : rs.all (fun r => r.2 < 0x30 || (0x39 < r.1 && r.2 < 0x41) || (0x5A < r.1 && r.2 < 0x61) || 0x7A < r.1) = true)
    {c : Char} (h : c.isAlphanum = true) : rs.contains c = false := by
  refine Bool.eq_false_iff.2 fun hcontains => ?_
  obtain ⟨r, hr, hfirst, hlast⟩ := (rs.contains_iff c).1 hcontains
  have hranges := List.all_eq_true.1 hapart r hr
  unfold Char.isAlphanum Char.isAlpha Char.isUpper Char.isLower Char.isDigit at h
  simp only [UInt32.le_iff_toNat_le, Bool.or_eq_true, Bool.and_eq_true, decide_eq_true_eq] at h hranges
  change (65 ≤ c.toNat ∧ c.toNat ≤ 90 ∨ 97 ≤ c.toNat ∧ c.toNat ≤ 122) ∨ 48 ≤ c.toNat ∧ c.toNat ≤ 57 at h
  omega

end WorkspaceLint.Text
