import WorkspaceLint.Files.Walk
import WorkspaceLint.ProjectFiles
import WorkspaceLint.Proofs.Files.Resolution
import Mathlib.Data.List.Pairwise
import Mathlib.Data.List.Nodup

/-!
# What walks meet

A walk from a directory meets exactly the directories to which kept names lead and whose paths are not too long, each once
(`mem_visits_iff`, `visits_paths_nodup`), and the full listing holds exactly the paths of what lies below (`mem_descendants_iff`).
-/

namespace WorkspaceLint.Files

namespace FileSystem

/-! ## Visits of a walk -/

/-- The visits of entries are the visits of what the kept ones among them hold. -/
theorem mem_visitsBelow_iff {fs : FileSystem} {keep : String → Bool} {path : Path} {es : List (String × Node)} {v : Visit} :
    v ∈ fs.visitsBelow keep path es ↔
      ∃ name n, (name, n) ∈ es ∧ keep name = true ∧ v ∈ fs.visits keep (path.child name) n := by
  induction es with
  | nil => simp [visitsBelow]
  | cons e rest ih =>
    obtain ⟨k, m⟩ := e
    rw [visitsBelow, List.mem_append, ih]
    constructor
    · rintro (h | ⟨name, n, hn, hk, hv⟩)
      · by_cases hk : keep k = true
        · rw [if_pos hk] at h
          exact ⟨k, m, List.mem_cons_self, hk, h⟩
        · rw [if_neg hk] at h
          nomatch h
      · exact ⟨name, n, List.mem_cons_of_mem _ hn, hk, hv⟩
    · rintro ⟨name, n, hn, hk, hv⟩
      rcases List.mem_cons.1 hn with h | hn
      · cases h
        left
        rw [if_pos hk]
        exact hv
      · exact Or.inr ⟨name, n, hn, hk, hv⟩

/-- A directory that kept names lead to is visited when its path is not too long. -/
theorem visit_mem_visits {fs : FileSystem} {keep : String → Bool} {names : List String} {es : List (String × Node)} :
    ∀ {path : Path} {n : Node}, (∀ x ∈ names, keep x = true) → n.at? names = some (.dir es) →
      (path.below names).text.utf8ByteSize < pathBytesLimit →
      fs.visit keep (path.below names) es ∈ fs.visits keep path n := by
  induction names with
  | nil =>
    intro path n _ h hlen
    cases h
    rw [Path.below_nil] at hlen ⊢
    rw [visits, if_neg (Nat.not_le.2 hlen)]
    exact List.mem_cons_self
  | cons name rest ih =>
    intro path n hk h hlen
    obtain ⟨es', c, rfl, hc, hrest⟩ := Node.eq_dir_of_at?_cons h
    rw [visits, if_neg (Nat.not_le.2 (Path.utf8ByteSize_text_lt_of_below (by decide) hlen))]
    refine List.mem_cons_of_mem _ (mem_visitsBelow_iff.2 ⟨name, c, Node.mem_of_lookup hc, hk name List.mem_cons_self, ?_⟩)
    rw [← Path.child_below] at hlen ⊢
    exact ih (fun x hx => hk x (List.mem_cons_of_mem _ hx)) hrest hlen

mutual

/-- What is visited is a directory that kept names lead to, with a path that is not too long. -/
theorem exists_of_mem_visits {fs : FileSystem} {keep : String → Bool} {v : Visit} : ∀ (n : Node) (path : Path),
    n.WellFormed → v ∈ fs.visits keep path n →
      ∃ names es, (∀ x ∈ names, keep x = true) ∧ n.at? names = some (.dir es) ∧
        (path.below names).text.utf8ByteSize < pathBytesLimit ∧ v = fs.visit keep (path.below names) es
  | .file _, _, _, h => nomatch h
  | .link _, _, _, h => nomatch h
  | .dir es, path, hw, h => by
    rw [visits] at h
    split at h
    · nomatch h
    rename_i hlen
    rcases List.mem_cons.1 h with rfl | h
    · exact ⟨[], es, by simp, rfl, by rw [Path.below_nil]; exact Nat.not_le.1 hlen, by rw [Path.below_nil]⟩
    · obtain ⟨name, n, names, es', hn, hk, hks, he, hlen, rfl⟩ :=
        exists_of_mem_visitsBelow es path ((Node.wellFormed_dir es).1 hw).2 h
      refine ⟨name :: names, es', ?_, ?_, hlen, rfl⟩
      · intro x hx
        rcases List.mem_cons.1 hx with rfl | hx
        · exact hk
        · exact hks x hx
      · rw [Node.at?_cons, Node.child?_dir, hw.lookup hn]
        exact he

/-- What is visited below entries is a directory that kept names lead to, the name of a kept entry first. -/
theorem exists_of_mem_visitsBelow {fs : FileSystem} {keep : String → Bool} {v : Visit} :
    ∀ (es : List (String × Node)) (path : Path), (∀ e ∈ es, IsEntryName e.1 ∧ e.2.WellFormed) →
      v ∈ fs.visitsBelow keep path es →
      ∃ name n names es', (name, n) ∈ es ∧ keep name = true ∧ (∀ x ∈ names, keep x = true) ∧
        n.at? names = some (.dir es') ∧ (path.below (name :: names)).text.utf8ByteSize < pathBytesLimit ∧
        v = fs.visit keep (path.below (name :: names)) es'
  | [], _, _, h => nomatch h
  | (k, m) :: rest, path, hw, h => by
    rw [visitsBelow, List.mem_append] at h
    rcases h with h | h
    · by_cases hk : keep k = true
      · rw [if_pos hk] at h
        obtain ⟨names, es', hks, he, hlen, rfl⟩ := exists_of_mem_visits m (path.child k) (hw (k, m) List.mem_cons_self).2 h
        rw [Path.child_below] at hlen
        exact ⟨k, m, names, es', List.mem_cons_self, hk, hks, he, hlen, by rw [Path.child_below]⟩
      · rw [if_neg hk] at h
        nomatch h
    · obtain ⟨name, n, names, es', hn, hk, hks, he, hlen, hv⟩ :=
        exists_of_mem_visitsBelow rest path (fun e he => hw e (List.mem_cons_of_mem _ he)) h
      exact ⟨name, n, names, es', List.mem_cons_of_mem _ hn, hk, hks, he, hlen, hv⟩

end

/-- A walk visits exactly the directories that kept names lead to and whose paths are not too long. -/
theorem mem_visits_iff {fs : FileSystem} {keep : String → Bool} {path : Path} {n : Node} {v : Visit} (hw : n.WellFormed) :
    v ∈ fs.visits keep path n ↔
      ∃ names es, (∀ x ∈ names, keep x = true) ∧ n.at? names = some (.dir es) ∧
        (path.below names).text.utf8ByteSize < pathBytesLimit ∧ v = fs.visit keep (path.below names) es := by
  constructor
  · exact exists_of_mem_visits n path hw
  · rintro ⟨names, es, hk, he, hlen, rfl⟩
    exact visit_mem_visits hk he hlen

/-- The path of a visit lies at or below the path of the walk. -/
theorem exists_path_of_mem_visits {fs : FileSystem} {keep : String → Bool} {path : Path} {n : Node} {v : Visit}
    (hw : n.WellFormed) (h : v ∈ fs.visits keep path n) : ∃ names, v.path = path.below names := by
  obtain ⟨names, es, -, -, -, rfl⟩ := (mem_visits_iff hw).1 h
  exact ⟨names, rfl⟩

mutual

/-- A walk visits no directory twice. -/
theorem visits_paths_nodup (fs : FileSystem) (keep : String → Bool) : ∀ (n : Node) (path : Path), n.WellFormed →
    ((fs.visits keep path n).map (·.path)).Nodup
  | .file _, _, _ => by simp [visits]
  | .link _, _, _ => by simp [visits]
  | .dir es, path, hw => by
    rw [visits]
    split
    · exact List.nodup_nil
    rw [List.map_cons, List.nodup_cons]
    have hes := (Node.wellFormed_dir es).1 hw
    refine ⟨fun hmem => ?_, visitsBelow_paths_nodup fs keep es path hes.1 hes.2⟩
    obtain ⟨v, hv, he⟩ := List.mem_map.1 hmem
    obtain ⟨name, n, hn, -, hv⟩ := mem_visitsBelow_iff.1 hv
    obtain ⟨names, hp⟩ := exists_path_of_mem_visits (hes.2 (name, n) hn).2 hv
    rw [hp, Path.child_below] at he
    have : (name :: names : List String) = [] := Path.below_inj.1 (he.trans (Path.below_nil path).symm)
    nomatch this

/-- A walk below entries visits no directory twice. -/
theorem visitsBelow_paths_nodup (fs : FileSystem) (keep : String → Bool) : ∀ (es : List (String × Node)) (path : Path),
    (es.map (·.1)).Nodup → (∀ e ∈ es, IsEntryName e.1 ∧ e.2.WellFormed) →
      ((fs.visitsBelow keep path es).map (·.path)).Nodup
  | [], _, _, _ => by simp [visitsBelow]
  | (k, m) :: rest, path, hd, hw => by
    rw [List.map_cons, List.nodup_cons] at hd
    have hrest := visitsBelow_paths_nodup fs keep rest path hd.2 fun e he => hw e (List.mem_cons_of_mem _ he)
    rw [visitsBelow, List.map_append, List.nodup_append']
    refine ⟨?_, hrest, ?_⟩
    · by_cases hk : keep k = true
      · rw [if_pos hk]
        exact visits_paths_nodup fs keep m (path.child k) (hw (k, m) List.mem_cons_self).2
      · rw [if_neg hk]
        exact List.nodup_nil
    · intro p hp hp'
      by_cases hk : keep k = true
      · rw [if_pos hk] at hp
        obtain ⟨v, hv, rfl⟩ := List.mem_map.1 hp
        obtain ⟨v', hv', he⟩ := List.mem_map.1 hp'
        obtain ⟨names, hn⟩ := exists_path_of_mem_visits (hw (k, m) List.mem_cons_self).2 hv
        obtain ⟨name, n, hmem, -, hv'⟩ := mem_visitsBelow_iff.1 hv'
        obtain ⟨names', hn'⟩ := exists_path_of_mem_visits (hw (name, n) (List.mem_cons_of_mem _ hmem)).2 hv'
        rw [hn, hn', Path.child_below, Path.child_below] at he
        have := Path.below_inj.1 he
        cases this
        exact hd.1 (List.mem_map.2 ⟨_, hmem, rfl⟩)
      · rw [if_neg hk] at hp
        nomatch hp

end

/-! ## Full listings -/

end FileSystem

namespace Node

theorem mem_entriesDescendants_iff {path c : Path} {es : List (String × Node)} :
    c ∈ entriesDescendants path es ↔ ∃ name n, (name, n) ∈ es ∧ c ∈ n.descendants (path.child name) := by
  induction es with
  | nil => simp [entriesDescendants]
  | cons e rest ih =>
    obtain ⟨k, m⟩ := e
    rw [entriesDescendants, List.mem_append, ih]
    constructor
    · rintro (h | ⟨name, n, hn, h⟩)
      · exact ⟨k, m, List.mem_cons_self, h⟩
      · exact ⟨name, n, List.mem_cons_of_mem _ hn, h⟩
    · rintro ⟨name, n, hn, h⟩
      rcases List.mem_cons.1 hn with hn | hn
      · cases hn
        exact Or.inl h
      · exact Or.inr ⟨name, n, hn, h⟩

/-- What names lead to is listed. -/
theorem below_mem_descendants {names : List String} : ∀ {path : Path} {n m : Node}, names ≠ [] →
    n.at? names = some m → path.below names ∈ n.descendants path := by
  induction names with
  | nil => exact fun h _ => absurd rfl h
  | cons name rest ih =>
    intro path n m _ h
    obtain ⟨es, c, rfl, hc, hrest⟩ := Node.eq_dir_of_at?_cons h
    have hmem := Node.mem_of_lookup hc
    rw [descendants, List.mem_append]
    by_cases hr : rest = []
    · subst hr
      exact Or.inl (List.mem_map.2 ⟨(name, c), hmem, rfl⟩)
    · right
      rw [mem_entriesDescendants_iff]
      refine ⟨name, c, hmem, ?_⟩
      rw [← Path.child_below]
      exact ih hr hrest

mutual

/-- What is listed is what names lead to. -/
theorem exists_of_mem_descendants {c : Path} : ∀ (n : Node) (path : Path), n.WellFormed → c ∈ n.descendants path →
    ∃ names m, names ≠ [] ∧ n.at? names = some m ∧ c = path.below names
  | .file _, _, _, h => nomatch h
  | .link _, _, _, h => nomatch h
  | .dir es, path, hw, h => by
    rw [descendants, List.mem_append] at h
    rcases h with h | h
    · obtain ⟨e, he, rfl⟩ := List.mem_map.1 h
      refine ⟨[e.1], e.2, by simp, ?_, rfl⟩
      have hmem : (e.1, e.2) ∈ es := he
      rw [at?_cons, child?_dir, hw.lookup hmem]
      rfl
    · obtain ⟨name, n, names, m, hn, hm, rfl⟩ :=
        exists_of_mem_entriesDescendants es path ((wellFormed_dir es).1 hw).2 h
      refine ⟨name :: names, m, by simp, ?_, rfl⟩
      rw [at?_cons, child?_dir, hw.lookup hn]
      exact hm

/-- What is listed below entries is what the name of an entry and more names lead to. -/
theorem exists_of_mem_entriesDescendants {c : Path} : ∀ (es : List (String × Node)) (path : Path),
    (∀ e ∈ es, IsEntryName e.1 ∧ e.2.WellFormed) → c ∈ entriesDescendants path es →
      ∃ name n names m, (name, n) ∈ es ∧ n.at? names = some m ∧ c = path.below (name :: names)
  | [], _, _, h => nomatch h
  | (k, m) :: rest, path, hw, h => by
    rw [entriesDescendants, List.mem_append] at h
    rcases h with h | h
    · obtain ⟨names, m', -, hm, rfl⟩ := exists_of_mem_descendants m (path.child k) (hw (k, m) List.mem_cons_self).2 h
      exact ⟨k, m, names, m', List.mem_cons_self, hm, by rw [Path.child_below]⟩
    · obtain ⟨name, n, names, m', hn, hm, hc⟩ :=
        exists_of_mem_entriesDescendants rest path (fun e he => hw e (List.mem_cons_of_mem _ he)) h
      exact ⟨name, n, names, m', List.mem_cons_of_mem _ hn, hm, hc⟩

end

/-- The full listing below a node holds exactly the paths of what names lead to. -/
theorem mem_descendants_iff {n : Node} {path c : Path} (hw : n.WellFormed) :
    c ∈ n.descendants path ↔ ∃ names m, names ≠ [] ∧ n.at? names = some m ∧ c = path.below names := by
  constructor
  · exact exists_of_mem_descendants n path hw
  · rintro ⟨names, m, hne, hm, rfl⟩
    exact below_mem_descendants hne hm

end Node

end WorkspaceLint.Files
