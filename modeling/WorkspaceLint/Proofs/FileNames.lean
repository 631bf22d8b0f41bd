import WorkspaceLint.Check.Naming
import WorkspaceLint.SourceFile
import Mathlib.Data.List.Infix

/-!
# Endings of file names

How the suffix of a name and the endings that files are sorted by go together: a name ends in its suffix, endings of one name that
are not empty share their last character, and a name is split from an ending that it was put together with.
-/

namespace WorkspaceLint

/-- A name is its stem and its suffix. -/
theorem splitSuffix_append (name : List Char) : (splitSuffix name).1 ++ (splitSuffix name).2 = name := by
  unfold splitSuffix
  have hsplit : name.reverse.takeWhile (· ≠ '.') ++ name.reverse.dropWhile (· ≠ '.') = name.reverse :=
    List.takeWhile_append_dropWhile
  dsimp only
  split
  · rename_i c before hd
    split
    · simp
    · rw [hd] at hsplit
      have := congrArg List.reverse hsplit
      simpa using this
  · simp

/-- A name is split at its last dot when that is neither its first character nor its last one. -/
theorem splitSuffix_of_dot {before after : List Char} (hbefore : before ≠ []) (hafter : after ≠ []) (hdot : '.' ∉ after) :
    splitSuffix (before ++ '.' :: after) = (before, '.' :: after) := by
  obtain ⟨c, rest, hrest⟩ := List.exists_cons_of_ne_nil (List.reverse_ne_nil_iff.2 hbefore)
  obtain rfl : before = (c :: rest).reverse := by rw [← hrest, List.reverse_reverse]
  have hreverse : ((c :: rest).reverse ++ '.' :: after).reverse = after.reverse ++ '.' :: c :: rest := by simp
  have hall : ∀ d ∈ after.reverse, decide (d ≠ '.') = true := fun d hd =>
    decide_eq_true fun he => hdot (he ▸ List.mem_reverse.1 hd)
  rw [splitSuffix, hreverse, List.takeWhile_append_of_pos hall, List.dropWhile_append_of_pos hall]
  simp [hafter]

/-- A name is all stem, or it is split at a dot between other characters, the last of its dots. -/
theorem splitSuffix_cases (name : List Char) : splitSuffix name = (name, []) ∨
    ∃ before after, before ≠ [] ∧ after ≠ [] ∧ '.' ∉ after ∧ splitSuffix name = (before, '.' :: after) := by
  unfold splitSuffix
  dsimp only
  split
  · rename_i c before _
    split
    · exact Or.inl rfl
    · rename_i hafter
      refine Or.inr ⟨(c :: before).reverse, _, by simp, List.reverse_ne_nil_iff.2 hafter, fun hdot => ?_, rfl⟩
      have hall := List.all_eq_true.1 (List.all_takeWhile (p := (· ≠ '.')) (l := name.reverse)) '.' (List.mem_reverse.1 hdot)
      exact of_decide_eq_true hall rfl
  · exact Or.inl rfl

/-- The name of a path ends in its suffix. -/
theorem endsIn_suffix (p : Path) : endsIn p.name p.suffix = true := by
  rw [endsIn, List.isSuffixOf_iff_suffix, Path.suffix, String.toList_ofList]
  exact ⟨_, splitSuffix_append p.name.toList⟩

/-- The suffix of a name that goes on before an ending is that ending, when it has one dot, its first character, and does not end
there. -/
theorem suffix_eq_of_endsIn {p : Path} {ending : String} {after : List Char} (hending : ending.toList = '.' :: after)
    (hafter : after ≠ []) (hdot : '.' ∉ after) (h : endsIn p.name ending = true) (hne : p.name ≠ ending) : p.suffix = ending := by
  rw [endsIn, List.isSuffixOf_iff_suffix, hending] at h
  obtain ⟨before, hname⟩ := h
  have hbefore : before ≠ [] := by
    rintro rfl
    rw [List.nil_append, ← hending, String.toList_inj] at hname
    exact hne hname.symm
  rw [Path.suffix, ← hname, splitSuffix_of_dot hbefore hafter hdot, ← hending, String.ofList_toList]

theorem endsIn_append (stem ending : String) : endsIn (stem ++ ending) ending = true := by
  rw [endsIn, List.isSuffixOf_iff_suffix, String.toList_append]
  exact List.suffix_append _ _

/-- A name ends in the last character of an ending. -/
theorem getLast?_of_endsIn {name ending : String} (h : endsIn name ending = true) {c : Char}
    (hc : ending.toList.getLast? = some c) : name.toList.getLast? = some c := by
  rw [endsIn, List.isSuffixOf_iff_suffix] at h
  obtain ⟨before, hb⟩ := h
  rw [← hb, List.getLast?_append, hc]
  rfl

/-- A name does not end in two endings with different last characters. -/
theorem not_endsIn_of_endsIn {name a b : String} (h : endsIn name a = true) {c d : Char}
    (hc : a.toList.getLast? = some c) (hd : b.toList.getLast? = some d) (hne : c ≠ d) : endsIn name b = false := by
  by_contra hb
  rw [Bool.not_eq_false] at hb
  have := (getLast?_of_endsIn h hc).symm.trans (getLast?_of_endsIn hb hd)
  exact hne (Option.some.inj this)

/-- A name without the ending that it was put together with. -/
theorem withoutEnding_append (stem : String) {ending : String} (h : ending ≠ "") :
    Check.withoutEnding (stem ++ ending) ending = stem := by
  rw [Check.withoutEnding, if_neg h, String.toList_append, String.length_append, Nat.add_sub_cancel, ← String.length_toList,
    List.take_left, String.ofList_toList]

namespace SourceFile

/-- No suffix of contracts ends as the endings of sources do. -/
theorem contractExtension_last {e : String} (h : e ∈ ({} : Rules).contractExtensions) :
    ∃ c, e.toList.getLast? = some c ∧ c ≠ 's' := by
  have hlast : ∀ e ∈ ({} : Rules).contractExtensions, e.toList.getLast? = some 't' ∨ e.toList.getLast? = some 'c' := by
    decide
  rcases hlast e h with h | h
  · exact ⟨'t', h, by decide⟩
  · exact ⟨'c', h, by decide⟩

/-- A contract is looked at whatever directory it lies in. -/
theorem relevant_of_contract {p : Path} (h : p.suffix ∈ ({} : Rules).contractExtensions) :
    isRelevantName {} p.name = true := by
  obtain ⟨c, hc, hne⟩ := contractExtension_last h
  have hdecl : endsIn p.name ({} : Rules).declarationSuffix = false :=
    not_endsIn_of_endsIn (endsIn_suffix p) hc (d := 's') (by decide) hne
  have hmem : p.suffix ∈ ({} : Rules).allExtensions := List.mem_append_left _ h
  rw [isRelevantName, hdecl, Bool.not_false, Bool.true_and, List.any_eq_true]
  exact ⟨p.suffix, hmem, endsIn_suffix p⟩

/-- A name that ends as sources do is no contract's. -/
theorem not_contract_of_source {p : Path} (h : endsIn p.name ({} : Rules).sourceExtension = true) :
    p.suffix ∉ ({} : Rules).contractExtensions := by
  intro hmem
  obtain ⟨c, hc, hne⟩ := contractExtension_last hmem
  have hno : endsIn p.name ({} : Rules).sourceExtension = false :=
    not_endsIn_of_endsIn (endsIn_suffix p) hc (d := 's') (by decide) hne
  rw [h] at hno
  nomatch hno

end SourceFile

end WorkspaceLint
