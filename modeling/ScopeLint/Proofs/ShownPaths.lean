import ScopeLint.Proofs.Joining
import ScopeLint.Rule

/-!
# The path of a finding leads back to the file

A finding carries the path of its file as seen from a base directory. Joined to the base, it denotes the
file again, whatever slashes and dots the two are written with. Stripping compares components and cuts the
text, and joining writes one text after the other, so the two meet only in the components: what is left
after a base has no head, and all its components are joined to those of the base.

A file that is not below the base is shown by its whole path. This one is absolute or it cannot be found
from the base, as a relative path is read from wherever the program runs.
-/

namespace ScopeLint

namespace Path

variable {p base : Path}

theorem components_eq_steps (bare : p.head = .none) : p.components = p.steps := by
  rw [components_eq, bare]
  rfl

theorem not_isAbsolute_of_head (bare : p.head = .none) : ¬ p.isAbsolute := by
  rw [isAbsolute, bare]
  decide

/-- A path that is not below a base is shown as it is. -/
theorem relativeTo_eq_self (apart : ¬ p.startsWith base) : p.relativeTo base = p := by
  rw [relativeTo, stripBase?, if_neg apart]
  rfl

/-- What is seen of a path from a base that is not empty has no head. -/
theorem head_relativeTo (below : p.startsWith base) (filled : base.chars ≠ []) :
    (p.relativeTo base).head = .none := by
  obtain ⟨n, count⟩ := Nat.exists_eq_succ_of_ne_zero
    (mt List.length_eq_zero_iff.mp (components_ne_nil filled))
  rw [relativeTo, stripBase?, if_pos below, Option.getD_some, count]
  exact head_dropComponents_succ p n

/-- Joining what is seen of a path to the base gives the path back, up to its spelling. -/
theorem components_join_relativeTo (below : p.startsWith base) :
    (base.join (p.relativeTo base)).components = p.components := by
  by_cases empty : base.chars = []
  · obtain rfl : base = ⟨[]⟩ := congrArg Path.mk empty
    rw [nil_join, components_relativeTo below]
    rfl
  · have bare := head_relativeTo below empty
    rw [components_join empty (not_isAbsolute_of_head bare), ← components_eq_steps bare]
    exact (components_relativeTo below).symm

end Path

namespace SourceFile

/-- The path that findings carry leads from the base to the file, for a file that is below the base or has an
absolute path. Below a base that is not empty it is relative, and has the components that follow those of
the base. -/
theorem shown_leadsBack (base path : Path) (text : List Char) (dialect : Dialect)
    (found : path.isAbsolute ∨ path.startsWith base) :
    let shown := (below base path text dialect).shown
    (base.join shown).components = path.components ∧
      (path.startsWith base → base.chars ≠ [] →
        ¬ shown.isAbsolute ∧ shown.components = path.components.drop base.components.length) := by
  intro shown
  refine ⟨?_, fun inside filled => ⟨?_, ?_⟩⟩
  · by_cases inside : path.startsWith base
    · exact Path.components_join_relativeTo inside
    · have rooted : path.isAbsolute := found.resolve_right inside
      have whole : shown = path := Path.relativeTo_eq_self inside
      rw [whole, Path.join_of_isAbsolute rooted]
  · exact Path.not_isAbsolute_of_head (Path.head_relativeTo inside filled)
  · rw [Path.components_relativeTo inside, List.drop_left]
    rfl

/-- A file below its base, both with slashes and dots to spare, a file below the current directory, the base
itself, and a file elsewhere. -/
theorem shown_leadsBack_spelled :
    let shown (base path : String) : Path :=
      (below (.ofString base) (.ofString path) [] .javaScript).shown
    shown "." "./a.js" = .ofString "a.js" ∧ shown "/work" "/work/" = .ofString "" ∧
      (let base := Path.ofString "/work/./"
      let path := Path.ofString "//work//src/./a.js/."
      path.startsWith base ∧ shown "/work/./" "//work//src/./a.js/." = .ofString "src/./a.js" ∧
        (base.join (shown "/work/./" "//work//src/./a.js/.")).components = path.components ∧
        ¬ (shown "/work/./" "//work//src/./a.js/.").isAbsolute ∧
        (shown "/work/./" "//work//src/./a.js/.").components = path.components.drop 2) ∧
      let base := Path.ofString "/work"
      let path := Path.ofString "/other//a.js"
      path.isAbsolute ∧ ¬ path.startsWith base ∧ shown "/work" "/other//a.js" = path ∧
        (base.join (shown "/work" "/other//a.js")).components = path.components := by
  intro shown
  obtain ⟨back, onward⟩ := shown_leadsBack (.ofString "/work/./") (.ofString "//work//src/./a.js/.") []
    .javaScript (.inr (by decide))
  obtain ⟨relative, same⟩ := onward (by decide) (by decide)
  obtain ⟨whole, _⟩ := shown_leadsBack (.ofString "/work") (.ofString "/other//a.js") [] .javaScript
    (.inl (by decide))
  exact ⟨by decide, by decide, ⟨by decide, by decide, back, relative, same⟩, by decide, by decide,
    by decide, whole⟩

end SourceFile

end ScopeLint
