import WorkspaceLint.Proofs.Path

/-!
# Locations moved from one root to another

The location of a file is seen from the root of its project first and from the scan root later. Nothing is lost on the way: from a
root the location leads back to the file, and what is seen from the scan root does not show that it was seen from the project
before (`relativeLocation_relocated`). That holds of files inside and outside of either root, since the location of a file outside
is its path.
-/

namespace WorkspaceLint

namespace Path

/-- A path that is read from some text. -/
def IsRead (p : Path) : Prop := ∃ s, ofString s = p

/-- A path that starts from a root. -/
def IsAbsolute (p : Path) : Prop := p.anchor ≠ .relative

/-- The paths that are read are the ones whose parts can be read back. -/
theorem isRead_iff {p : Path} : p.IsRead ↔ ∀ x ∈ p.parts, IsPart x := by
  constructor
  · rintro ⟨s, rfl⟩
    exact isPart_ofString s
  · intro h
    exact ⟨p.text, ofString_text h⟩

end Path

/-- The location of an absolute path under a root leads from the root back to the path, and it is the same when the path is taken
back from its location under another root first: a file, a project and a scan root may lie anywhere to each other. -/
theorem relativeLocation_relocated {f : Path} (hread : f.IsRead) (habsolute : f.IsAbsolute) (project scanRoot : Path) :
    scanRoot.join (Path.ofString (relativeLocation f scanRoot)) = f ∧
      relativeLocation (project.join (Path.ofString (relativeLocation f project))) scanRoot = relativeLocation f scanRoot := by
  have hback : ∀ root : Path, root.join (Path.ofString (relativeLocation f root)) = f := fun root =>
    join_relativeLocation habsolute (Path.isRead_iff.1 hread)
  exact ⟨hback scanRoot, by rw [hback project]⟩

/-- A file of a project below one root with two slashes, under names that look like the syntax of paths. The other root has one
slash only, so the file lies outside of it. -/
theorem relativeLocation_relocated_doubleRoot :
    (Path.ofString "//w/p/~/.../-.ts").IsRead ∧ (Path.ofString "//w/p/~/.../-.ts").IsAbsolute ∧
      relativeLocation (Path.ofString "//w/p/~/.../-.ts") (Path.ofString "//w/./p/") = "~/.../-.ts" ∧
      (Path.ofString "//w/./p/").join (Path.ofString "~/.../-.ts") = Path.ofString "//w/p/~/.../-.ts" ∧
      relativeLocation ((Path.ofString "//w/./p/").join (Path.ofString "~/.../-.ts")) (Path.ofString "/w") =
        "//w/p/~/.../-.ts" := by
  have hread : (Path.ofString "//w/p/~/.../-.ts").IsRead := ⟨_, rfl⟩
  have habsolute : (Path.ofString "//w/p/~/.../-.ts").IsAbsolute := by
    unfold Path.IsAbsolute
    decide +kernel
  have hinside : relativeLocation (Path.ofString "//w/p/~/.../-.ts") (Path.ofString "//w/./p/") = "~/.../-.ts" := by
    decide +kernel
  have houtside : relativeLocation (Path.ofString "//w/p/~/.../-.ts") (Path.ofString "/w") = "//w/p/~/.../-.ts" := by
    decide +kernel
  obtain ⟨hback, -⟩ := relativeLocation_relocated hread habsolute (Path.ofString "/w") (Path.ofString "//w/./p/")
  obtain ⟨-, hsame⟩ := relativeLocation_relocated hread habsolute (Path.ofString "//w/./p/") (Path.ofString "/w")
  rw [hinside] at hback hsame
  rw [houtside] at hsame
  exact ⟨hread, habsolute, hinside, hback, hsame⟩

end WorkspaceLint
