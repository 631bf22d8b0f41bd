import WorkspaceLint.Check.Duplicates
import WorkspaceLint.Snapshot
import WorkspaceLint.SourceScan
import Mathlib.Data.List.Nodup

/-!
# Sorting

A list sorted by an order that tells its members apart does not show in which order they stood before. Each order that a run
sorts by is total and transitive, and tells apart what it is used on.
-/

namespace WorkspaceLint

section General

variable {α : Type}

/-- Two orders of the same members are the same when they are sorted, if the order tells the members apart. -/
theorem mergeSort_eq_of_perm {le : α → α → Bool} (trans : ∀ a b c, le a b → le b c → le a c)
    (total : ∀ a b, le a b || le b a) {l l' : List α} (h : l.Perm l')
    (antisymm : ∀ a ∈ l, ∀ b ∈ l, le a b → le b a → a = b) : l.mergeSort le = l'.mergeSort le := by
  have hperm : (l.mergeSort le).Perm (l'.mergeSort le) :=
    (List.mergeSort_perm l le).trans (h.trans (List.mergeSort_perm l' le).symm)
  refine hperm.eq_of_pairwise (fun a b ha hb hab hba => ?_) (List.pairwise_mergeSort trans total l)
    (List.pairwise_mergeSort trans total l')
  refine antisymm a (List.mem_mergeSort.1 ha) b ?_ hab hba
  exact h.mem_iff.2 (List.mem_mergeSort.1 hb)

/-- Sorting by a key that tells the members apart. -/
theorem mergeSort_eq_of_key {κ : Type} [LE κ] [Std.IsLinearOrder κ] [DecidableLE κ] (key : α → κ) {l l' : List α}
    (h : l.Perm l') (hkey : ∀ a ∈ l, ∀ b ∈ l, key a = key b → a = b) :
    l.mergeSort (fun a b => key a ≤ key b) = l'.mergeSort fun a b => key a ≤ key b := by
  refine mergeSort_eq_of_perm (fun a b c hab hbc => ?_) (fun a b => ?_) h fun a ha b hb hab hba => ?_
  · simp only [decide_eq_true_eq] at hab hbc ⊢
    exact Std.le_trans hab hbc
  · simp only [Bool.or_eq_true, decide_eq_true_eq]
    exact Std.le_total
  · simp only [decide_eq_true_eq] at hab hba
    exact hkey a ha b hb (Std.le_antisymm hab hba)

/-- Sorting a list by a key that tells its members apart puts them in strictly ascending order, when it holds none twice. -/
theorem pairwise_lt_mergeSort_of_key {κ : Type} [LE κ] [LT κ] [Std.IsLinearOrder κ] [Std.LawfulOrderLT κ] [DecidableLE κ]
    (key : α → κ) {l : List α} (hl : l.Nodup) (hkey : ∀ a ∈ l, ∀ b ∈ l, key a = key b → a = b) :
    (l.mergeSort fun a b => key a ≤ key b).Pairwise fun a b => key a < key b := by
  have hsorted : (l.mergeSort fun a b => key a ≤ key b).Pairwise fun a b => key a ≤ key b := by
    refine (List.pairwise_mergeSort (fun a b c hab hbc => ?_) (fun a b => ?_) l).imp of_decide_eq_true
    · simp only [decide_eq_true_eq] at hab hbc ⊢
      exact Std.le_trans hab hbc
    · simp only [Bool.or_eq_true, decide_eq_true_eq]
      exact Std.le_total
  refine (hsorted.and (List.nodup_mergeSort.2 hl)).imp_of_mem fun {a b} ha hb ⟨hle, hne⟩ => ?_
  refine Std.lt_of_le_of_ne hle fun he => hne ?_
  exact hkey a (List.mem_mergeSort.1 ha) b (List.mem_mergeSort.1 hb) he

variable [BEq α] [LawfulBEq α]

/-- A list without what stands before has no member twice. -/
theorem nodup_eraseDups (l : List α) : l.eraseDups.Nodup := by
  induction hn : l.length using Nat.strongRecOn generalizing l with
  | ind n ih =>
    cases l with
    | nil => exact List.nodup_nil
    | cons a rest =>
      have hshorter := List.length_filter_le (fun b => !b == a) rest
      rw [List.eraseDups_cons]
      refine List.nodup_cons.2 ⟨?_, ih _ ?_ _ rfl⟩
      · simp [List.mem_eraseDups]
      · rw [List.length_cons] at hn
        omega

/-- Lists with the same members hold them in some order each once when what stands before is left out. -/
theorem perm_eraseDups {l l' : List α} (h : ∀ a, a ∈ l ↔ a ∈ l') : l.eraseDups.Perm l'.eraseDups := by
  rw [List.perm_ext_iff_of_nodup (nodup_eraseDups l) (nodup_eraseDups l')]
  intro a
  rw [List.mem_eraseDups, List.mem_eraseDups, h]

end General

/-! ## Orders by a key -/

theorem Path.le_iff {p q : Path} : p.le q = true ↔ p.orderKey.le q.orderKey := decide_eq_true_iff

theorem Path.le_trans (p q r : Path) (hpq : p.le q = true) (hqr : q.le r = true) : p.le r = true :=
  Path.le_iff.2 (List.le_trans (Path.le_iff.1 hpq) (Path.le_iff.1 hqr))

theorem Path.le_total (p q : Path) : (p.le q || q.le p) = true := by
  rw [Bool.or_eq_true, Path.le_iff, Path.le_iff]
  exact List.le_total _ _

theorem Path.pairwise_sort (ps : List Path) : (Path.sort ps).Pairwise fun p q => Path.le p q :=
  List.pairwise_mergeSort Path.le_trans Path.le_total ps

theorem Path.sort_eq_self {ps : List Path} (h : ps.Pairwise fun p q => Path.le p q) : Path.sort ps = ps :=
  List.mergeSort_of_pairwise h

/-- Paths with one anchor that differ and stand in the order of paths are in strictly ascending order by their names. -/
theorem Path.parts_lt_of_le {p q : Path} (hanchor : p.anchor = q.anchor) (hle : p.le q = true) (hne : p ≠ q) :
    p.parts < q.parts := by
  have hparts : p.parts.le q.parts := by
    rw [Path.le_iff, Path.orderKey, Path.orderKey, ← hanchor] at hle
    split at hle
    · exact hle
    · exact (List.cons_le_cons_iff.1 hle).elim (fun h => absurd h Std.lt_irrefl) And.right
  by_contra hlt
  have he : p.parts = q.parts := List.le_antisymm hparts (List.not_lt.1 hlt)
  refine hne ?_
  rw [Path.mk.injEq]
  exact ⟨hanchor, he⟩

/-- Paths from the root are told apart by their order. -/
theorem Path.sort_eq_of_perm {ps qs : List Path} (h : ps.Perm qs) (hroot : ∀ p ∈ ps, p.anchor = .root) :
    Path.sort ps = Path.sort qs := by
  refine mergeSort_eq_of_perm Path.le_trans Path.le_total h fun a ha b hb hab hba => ?_
  have hkey : a.orderKey = b.orderKey := List.le_antisymm (Path.le_iff.1 hab) (Path.le_iff.1 hba)
  rw [Path.orderKey, Path.orderKey, hroot a ha, hroot b hb, List.cons.injEq] at hkey
  cases a
  cases b
  rw [Path.mk.injEq]
  exact ⟨(hroot _ ha).trans (hroot _ hb).symm, hkey.2⟩

theorem Check.sortTexts_eq_of_perm {ss ts : List String} (h : ss.Perm ts) : sortTexts ss = sortTexts ts :=
  mergeSort_eq_of_key id h fun _ _ _ _ he => he

/-- Source files are told apart by their order when each has a location of its own. -/
theorem SourceFile.sort_eq_of_perm {fs gs : List SourceFile} (h : fs.Perm gs)
    (hlocation : ∀ f ∈ fs, ∀ g ∈ fs, f.location.text = g.location.text → f = g) :
    SourceFile.sort fs = SourceFile.sort gs :=
  mergeSort_eq_of_key (fun f : SourceFile => f.location.text) h hlocation

/-! ## Entries in a snapshot -/

namespace Snapshot

/-- The order of names by their forms in lower case, and then as they are. -/
def NameLe (x y : String) : Prop := Text.lowered x < Text.lowered y ∨ Text.lowered x = Text.lowered y ∧ x ≤ y

theorem NameLe.trans {x y z : String} (h1 : NameLe x y) (h2 : NameLe y z) : NameLe x z := by
  rcases h1 with h1 | ⟨h1, hxy⟩
  · rcases h2 with h2 | ⟨h2, -⟩
    · exact Or.inl (Std.lt_trans h1 h2)
    · exact Or.inl (h2 ▸ h1)
  · rcases h2 with h2 | ⟨h2, hyz⟩
    · exact Or.inl (h1 ▸ h2)
    · exact Or.inr ⟨h1.trans h2, Std.le_trans hxy hyz⟩

theorem NameLe.total (x y : String) : NameLe x y ∨ NameLe y x := by
  rcases Std.lt_trichotomy (Text.lowered x) (Text.lowered y) with h | h | h
  · exact Or.inl (Or.inl h)
  · exact Std.le_total.imp (fun hxy => Or.inr ⟨h, hxy⟩) fun hyx => Or.inr ⟨h.symm, hyx⟩
  · exact Or.inr (Or.inl h)

theorem NameLe.antisymm {x y : String} (h1 : NameLe x y) (h2 : NameLe y x) : x = y := by
  rcases h1 with h1 | ⟨h1, hxy⟩
  · rcases h2 with h2 | ⟨h2, -⟩
    · exact absurd h2 (Std.not_gt_of_lt h1)
    · exact absurd h1 (h2 ▸ Std.lt_irrefl)
  · rcases h2 with h2 | ⟨-, hyx⟩
    · exact absurd h2 (h1 ▸ Std.lt_irrefl)
    · exact Std.le_antisymm hxy hyx

/-- Directories stand before other entries, and otherwise the names decide. -/
theorem le_iff {a b : String × Bool} : le a b = true ↔ (a.2 = b.2 ∧ NameLe a.1 b.1) ∨ (a.2 = true ∧ b.2 = false) := by
  rw [le, NameLe]
  obtain ⟨x, d⟩ := a
  obtain ⟨y, e⟩ := b
  cases d <;> cases e <;> simp

/-- Entries are told apart by their order. -/
theorem mergeSort_le_eq_of_perm {l l' : List (String × Bool)} (h : l.Perm l') : l.mergeSort le = l'.mergeSort le := by
  refine mergeSort_eq_of_perm (fun a b c hab hbc => ?_) (fun a b => ?_) h fun a _ b _ hab hba => ?_
  · rw [le_iff] at hab hbc ⊢
    rcases hab with ⟨h1, h2⟩ | ⟨h1, h2⟩
    · rcases hbc with ⟨h3, h4⟩ | ⟨h3, h4⟩
      · exact Or.inl ⟨h1.trans h3, h2.trans h4⟩
      · exact Or.inr ⟨h1.trans h3, h4⟩
    · rcases hbc with ⟨h3, -⟩ | ⟨h3, -⟩
      · exact Or.inr ⟨h1, h3.symm.trans h2⟩
      · rw [h2] at h3
        nomatch h3
  · rw [Bool.or_eq_true, le_iff, le_iff]
    rcases NameLe.total a.1 b.1 with hk | hk
    all_goals cases ha : a.2 <;> cases hb : b.2 <;> simp [hk]
  · rw [le_iff] at hab hba
    rcases hab with ⟨h1, h2⟩ | ⟨h1, h2⟩
    · rcases hba with ⟨-, h4⟩ | ⟨h3, h4⟩
      · exact Prod.ext (h2.antisymm h4) h1
      · rw [h1, h3] at h4
        nomatch h4
    · rcases hba with ⟨h3, -⟩ | ⟨h3, -⟩
      · rw [h1, h2] at h3
        nomatch h3
      · rw [h2] at h3
        nomatch h3

end Snapshot

end WorkspaceLint
