import ScopeLint.ConfigurationSource
import ScopeLint.Proofs.Places

/-!
# The search for settings on the way up

A search starts at any path, written in any way, and goes up by taking off components. The list of the
paths above is bounded by the number of components; as each step takes one off, the bound cuts nothing,
and the list is all that going up can reach.

What a directory holds is said by places: the path leads to a directory in which there is such an entry.
The first directory that holds a settings file ends the search, and so does the first that holds `.git`;
the settings file is asked for first, so one beside `.git` is found and one above it is not.
-/

namespace ScopeLint

namespace Path

variable {p q : Path}

/-- The path that is a number of steps above another one. -/
def above? (p : Path) : Nat → Option Path
  | 0 => some p
  | steps + 1 => (p.above? steps).bind parent?

/-- Pieces that were cut after the last component end in a component. -/
theorem significant_of_trimPieces {pieces before : List (List Char)} {last : List Char}
    (split : trimPieces pieces = before ++ [last]) : significant last := by
  have ends : (pieces.reverse.dropWhile (!significant ·)).head? = some last := by
    rw [← List.getLast?_reverse]
    exact (congrArg List.getLast? split).trans List.getLast?_concat
  have kept := List.head?_dropWhile_not (!significant ·) pieces.reverse
  rw [ends] at kept
  simpa using kept

/-- Going up takes the last component off. -/
theorem exists_last_component (above : p.parent? = some q) :
    ∃ last, p.components = q.components ++ [last] := by
  unfold parent? at above
  split at above
  · rename_i last rest reversed
    cases above
    have split : trimPieces p.pieces = rest.reverse ++ [last] := by
      rw [← List.reverse_cons, ← reversed, List.reverse_reverse]
    have kept := significant_of_trimPieces split
    have suits : p.head.Suits (trimPieces rest.reverse).head? := by
      refine (head_suits p).mono fun piece begins => ?_
      rw [split, List.head?_append, Option.mem_def.mp (mem_head?_of_trimPieces begins)]
      rfl
    have free : ∀ piece ∈ trimPieces rest.reverse, '/' ∉ piece := by
      intro piece member
      have inside := List.mem_append_left [last] ((trimPieces_isPrefix _).subset member)
      exact notMem_of_mem_pieces ((trimPieces_isPrefix _).subset (split ▸ inside))
    refine ⟨Component.ofPiece last, ?_⟩
    rw [components_written suits free, components, ← filter_trimPieces p.pieces, split, filter_trimPieces,
      List.filter_append, List.filter_cons_of_pos kept, List.map_append, List.append_assoc]
    rfl
  · rename_i empty
    split at above
    · rename_i current
      cases above
      have none : p.pieces.filter significant = [] := by
        rw [← filter_trimPieces, List.reverse_eq_nil_iff.mp empty]
        rfl
      exact ⟨.current, by rw [components, none, current]; rfl⟩
    · cases above

theorem above?_of_parent? (above : p.parent? = some q) (steps : Nat) :
    p.above? (steps + 1) = q.above? steps := by
  induction steps with
  | zero => exact above
  | succ steps ih => rw [above?, ih, above?]

theorem above?_of_top (top : p.parent? = none) (steps : Nat) : p.above? (steps + 1) = none := by
  induction steps with
  | zero => exact top
  | succ steps ih => rw [above?, ih, Option.bind_none]

theorem getElem?_ancestorsUpTo {bound : Nat} (enough : p.components.length ≤ bound) (steps : Nat) :
    (p.ancestorsUpTo bound)[steps]? = p.above? steps := by
  induction bound generalizing p steps with
  | zero =>
      have top : p.parent? = none := by
        refine Option.eq_none_iff_forall_ne_some.mpr fun q above => ?_
        obtain ⟨last, longer⟩ := exists_last_component above
        simp [longer] at enough
      cases steps with
      | zero => rfl
      | succ steps =>
          rw [above?_of_top top]
          rfl
  | succ bound ih =>
      rw [ancestorsUpTo]
      cases steps with
      | zero => cases p.parent? <;> rfl
      | succ steps =>
          cases above : p.parent? with
          | none =>
              rw [above?_of_top above]
              rfl
          | some q =>
              obtain ⟨last, longer⟩ := exists_last_component above
              have fewer : q.components.length ≤ bound := by
                rw [longer, List.length_append, List.length_singleton] at enough
                omega
              rw [above?_of_parent? above]
              exact ih fewer steps

/-- The paths above a path are all that going up reaches. -/
theorem getElem?_ancestors (p : Path) (steps : Nat) : p.ancestors[steps]? = p.above? steps :=
  getElem?_ancestorsUpTo (Nat.le_refl _) steps

end Path

namespace FileSystem

open ScopeLint.Path (IsName)

variable {fs : FileSystem} {directory : Path} {name : List Char}

/-- Whether a path leads to a directory that has an entry of this name. -/
def Holds (fs : FileSystem) (directory : Path) (name : List Char) : Prop :=
  ∃ place, fs.Leads directory place ∧ (fs.node? (place ++ [name])).isSome

/-- Whether a path leads to a directory that has a file of this name. -/
def HoldsFile (fs : FileSystem) (directory : Path) (name : List Char) : Prop :=
  ∃ place, fs.Leads directory place ∧ (fs.file? (place ++ [name])).isSome

theorem contains_join_iff (isName : IsName name) :
    fs.contains (directory.join ⟨name⟩) ↔ fs.Holds directory name := by
  rw [contains, Option.isSome_iff_exists]
  constructor
  · rintro ⟨_, resolves⟩
    obtain ⟨place, leads, there, rfl⟩ := (resolve?_join_name isName).mp resolves
    exact ⟨place, leads, there⟩
  · rintro ⟨place, leads, there⟩
    exact ⟨_, (resolve?_join_name isName).mpr ⟨place, leads, there, rfl⟩⟩

theorem isFile_join_iff (isName : IsName name) :
    fs.isFile (directory.join ⟨name⟩) ↔ fs.HoldsFile directory name := by
  rw [isFile, Option.isSome_iff_exists]
  constructor
  · rintro ⟨content, read⟩
    obtain ⟨_, resolves, found⟩ := Option.bind_eq_some_iff.mp read
    obtain ⟨place, leads, _, rfl⟩ := (resolve?_join_name isName).mp resolves
    exact ⟨place, leads, Option.isSome_iff_exists.mpr ⟨content, found⟩⟩
  · rintro ⟨place, leads, isFile⟩
    obtain ⟨content, found⟩ := Option.isSome_iff_exists.mp isFile
    exact ⟨content, Option.bind_eq_some_iff.mpr ⟨_, leads.resolve?_join_file isName isFile, found⟩⟩

end FileSystem

namespace ConfigurationSource

open ScopeLint.Path (IsName)

variable {fs : FileSystem} {directory d p : Path} {directories : List Path} {steps : Nat}

/-- Whether a directory holds a settings file, under one name or the other. -/
def HoldsSettings (fs : FileSystem) (d : Path) : Prop :=
  fs.HoldsFile d "hoist-lint.toml".toList ∨ fs.HoldsFile d ".hoist-lint.toml".toList

/-- The settings file of a directory that holds one: the name without a dot is preferred. -/
def settingsPath (fs : FileSystem) (d : Path) : Path :=
  if fs.isFile (d.join (.ofString "hoist-lint.toml")) then d.join (.ofString "hoist-lint.toml")
  else d.join (.ofString ".hoist-lint.toml")

/-- Whether `d`, so many steps up on a way through directories, is the first that holds a settings file,
and none that is passed before holds `.git`. -/
structure FirstHolder (fs : FileSystem) (way : Nat → Option Path) (steps : Nat) (d : Path) : Prop where
  reached : way steps = some d
  settings : HoldsSettings fs d
  passed : ∀ fewer < steps, ∀ e, way fewer = some e →
    ¬ HoldsSettings fs e ∧ ¬ fs.Holds e ".git".toList

/-! ## One directory -/

theorem inDirectory?_eq_some (holds : HoldsSettings fs d) :
    inDirectory? fs d = some (settingsPath fs d) := by
  have plainName : IsName "hoist-lint.toml".toList := by decide
  have dottedName : IsName ".hoist-lint.toml".toList := by decide
  rw [inDirectory?, fileNames, List.map_cons, List.map_singleton, settingsPath]
  by_cases plain : fs.isFile (d.join (.ofString "hoist-lint.toml"))
  · rw [List.find?_cons_of_pos plain, if_pos plain]
  · have dotted : fs.isFile (d.join (.ofString ".hoist-lint.toml")) := by
      have absent := mt (FileSystem.isFile_join_iff plainName).mpr plain
      exact (FileSystem.isFile_join_iff dottedName).mpr (holds.resolve_left absent)
    rw [List.find?_cons_of_neg plain, List.find?_cons_of_pos dotted, if_neg plain]

theorem inDirectory?_eq_none (without : ¬ HoldsSettings fs d) : inDirectory? fs d = none := by
  have plainName : IsName "hoist-lint.toml".toList := by decide
  have dottedName : IsName ".hoist-lint.toml".toList := by decide
  rw [inDirectory?, fileNames, List.find?_eq_none]
  intro path member isFile
  rcases List.mem_pair.mp member with rfl | rfl
  · exact without (.inl ((FileSystem.isFile_join_iff plainName).mp isFile))
  · exact without (.inr ((FileSystem.isFile_join_iff dottedName).mp isFile))

/-! ## The way up -/

section

variable {above : List Path}

theorem nearest?_of_holds (holds : HoldsSettings fs d) :
    nearest? fs (d :: above) = some (settingsPath fs d) := by
  rw [nearest?, inDirectory?_eq_some holds]

theorem nearest?_of_git (without : ¬ HoldsSettings fs d) (git : fs.Holds d ".git".toList) :
    nearest? fs (d :: above) = none := by
  have isName : IsName ".git".toList := by decide
  rw [nearest?, inDirectory?_eq_none without]
  exact if_pos ((FileSystem.contains_join_iff isName).mpr git)

theorem nearest?_of_passed (without : ¬ HoldsSettings fs d) (outside : ¬ fs.Holds d ".git".toList) :
    nearest? fs (d :: above) = nearest? fs above := by
  have isName : IsName ".git".toList := by decide
  rw [nearest?, inDirectory?_eq_none without]
  exact if_neg (mt (FileSystem.contains_join_iff isName).mp outside)

theorem nearest?_of_without (without : ¬ HoldsSettings fs d) : nearest? fs [d] = none := by
  by_cases git : fs.Holds d ".git".toList
  · exact nearest?_of_git without git
  · exact nearest?_of_passed without git

end

theorem FirstHolder.here {way : Nat → Option Path} (start : way 0 = some d) (holds : HoldsSettings fs d) :
    FirstHolder fs way 0 d :=
  ⟨start, holds, fun fewer less => absurd less (Nat.not_lt_zero fewer)⟩

/-- A directory that is passed can be left out. -/
theorem firstHolder_cons {above : List Path} {e : Path} (without : ¬ HoldsSettings fs e)
    (outside : ¬ fs.Holds e ".git".toList) :
    FirstHolder fs ((e :: above)[·]?) (steps + 1) d ↔ FirstHolder fs (above[·]?) steps d := by
  constructor
  · intro first
    refine ⟨first.reached, first.settings, fun fewer less e found => ?_⟩
    exact first.passed (fewer + 1) (Nat.succ_lt_succ less) e found
  · intro first
    refine ⟨first.reached, first.settings, ?_⟩
    rintro (_ | fewer) less e' found
    · cases found
      exact ⟨without, outside⟩
    · exact first.passed fewer (Nat.lt_of_succ_lt_succ less) e' found

/-- The search through a list of directories finds the settings file of the first holder. -/
theorem nearest?_eq_some_iff : nearest? fs directories = some p ↔
    ∃ steps d, FirstHolder fs (directories[·]?) steps d ∧ p = settingsPath fs d := by
  induction directories with
  | nil =>
      refine iff_of_false nofun ?_
      rintro ⟨steps, d, first, _⟩
      cases first.reached
  | cons e above ih =>
      by_cases holds : HoldsSettings fs e
      · -- the search ends here, and so does the way of any first holder
        rw [nearest?_of_holds holds, Option.some.injEq, eq_comm]
        refine ⟨fun same => ⟨0, e, .here rfl holds, same⟩, ?_⟩
        rintro ⟨_ | steps, d, first, same⟩
        · cases first.reached
          exact same
        · exact absurd holds (first.passed 0 (Nat.succ_pos steps) e rfl).1
      by_cases git : fs.Holds e ".git".toList
      · -- nothing is found here, and no first holder is further up
        rw [nearest?_of_git holds git]
        refine iff_of_false nofun ?_
        rintro ⟨_ | steps, d, first, _⟩
        · cases first.reached
          exact holds first.settings
        · exact (first.passed 0 (Nat.succ_pos steps) e rfl).2 git
      · rw [nearest?_of_passed holds git, ih]
        constructor
        · rintro ⟨steps, d, first, same⟩
          exact ⟨steps + 1, d, (firstHolder_cons holds git).mpr first, same⟩
        · rintro ⟨_ | steps, d, first, same⟩
          · cases first.reached
            exact absurd first.settings holds
          · exact ⟨steps, d, (firstHolder_cons holds git).mp first, same⟩

theorem nearest?_ancestors_iff : nearest? fs directory.ancestors = some p ↔
    ∃ steps d, FirstHolder fs directory.above? steps d ∧ p = settingsPath fs d := by
  rw [nearest?_eq_some_iff, funext directory.getElem?_ancestors]

theorem nearest?_ancestors_eq_none_iff : nearest? fs directory.ancestors = none ↔
    ∀ steps d, ¬ FirstHolder fs directory.above? steps d := by
  rw [Option.eq_none_iff_forall_ne_some]
  constructor
  · intro none steps d first
    exact none _ (nearest?_ancestors_iff.mpr ⟨steps, d, first, rfl⟩)
  · intro none path found
    obtain ⟨steps, d, first, _⟩ := nearest?_ancestors_iff.mp found
    exact none steps d first

/-! ## What is found -/

theorem global?_eq_some_iff {globalDirectory : Option Path} : global? fs globalDirectory = some p ↔
    ∃ g, globalDirectory = some g ∧ fs.HoldsFile g "config.toml".toList ∧
      p = g.join (.ofString "config.toml") := by
  have isName : IsName "config.toml".toList := by decide
  cases globalDirectory with
  | none => simp [global?]
  | some g =>
      rw [global?, Path.ofString]
      by_cases isFile : fs.isFile (g.join ⟨"config.toml".toList⟩)
      · have holds := (FileSystem.isFile_join_iff isName).mp isFile
        rw [if_pos isFile, Option.some.injEq, eq_comm]
        constructor
        · intro same
          exact ⟨g, rfl, holds, same⟩
        · rintro ⟨_, given, _, same⟩
          cases given
          exact same
      · rw [if_neg isFile]
        constructor
        · intro found
          cases found
        · rintro ⟨_, given, holds, _⟩
          cases given
          exact absurd ((FileSystem.isFile_join_iff isName).mpr holds) isFile

theorem global?_eq_none_iff {globalDirectory : Option Path} : global? fs globalDirectory = none ↔
    ∀ g, globalDirectory = some g → ¬ fs.HoldsFile g "config.toml".toList := by
  rw [Option.eq_none_iff_forall_ne_some]
  constructor
  · intro none g given holds
    exact none _ (global?_eq_some_iff.mpr ⟨g, given, holds, rfl⟩)
  · intro none path found
    obtain ⟨g, given, holds, _⟩ := global?_eq_some_iff.mp found
    exact none g given holds

/-- The configuration where no settings file is near. -/
def fallback (fs : FileSystem) (globalDirectory : Option Path) : ConfigurationSource :=
  (global? fs globalDirectory).elim builtIn global

theorem find_eq (fs : FileSystem) (directory : Path) (globalDirectory : Option Path) :
    find fs directory none globalDirectory =
      (nearest? fs directory.ancestors).elim (fallback fs globalDirectory) project := by
  rw [find, fallback]
  cases nearest? fs directory.ancestors with
  | some path => rfl
  | none => cases global? fs globalDirectory <;> rfl

/-- What is found is decided by the way up first, and then by the global directory. -/
theorem find_cases (fs : FileSystem) (directory : Path) (globalDirectory : Option Path) :
    (∀ p, find fs directory none globalDirectory = .project p ↔
      nearest? fs directory.ancestors = some p) ∧
    (∀ p, find fs directory none globalDirectory = .global p ↔
      nearest? fs directory.ancestors = none ∧ global? fs globalDirectory = some p) ∧
    (find fs directory none globalDirectory = .builtIn ↔
      nearest? fs directory.ancestors = none ∧ global? fs globalDirectory = none) := by
  rw [find_eq, fallback]
  cases nearest? fs directory.ancestors <;> cases global? fs globalDirectory <;> simp

/-- A named file comes first, whether or not it exists. Otherwise the settings file of the first holder on
the way up is found. Where there is no such directory, the file in the global directory counts if there
is one, and else the configuration is the default one. -/
theorem find_firstHolder (fs : FileSystem) (directory : Path) (globalDirectory : Option Path) :
    (∀ steps, directory.ancestors[steps]? = directory.above? steps) ∧
    (∀ named, find fs directory (some named) globalDirectory = .explicit named) ∧
    (∀ p, find fs directory none globalDirectory = .project p ↔
      ∃ steps d, FirstHolder fs directory.above? steps d ∧ p = settingsPath fs d) ∧
    (∀ p, find fs directory none globalDirectory = .global p ↔
      (∀ steps d, ¬ FirstHolder fs directory.above? steps d) ∧
        ∃ g, globalDirectory = some g ∧ fs.HoldsFile g "config.toml".toList ∧
          p = g.join (.ofString "config.toml")) ∧
    (find fs directory none globalDirectory = .builtIn ↔
      (∀ steps d, ¬ FirstHolder fs directory.above? steps d) ∧
        ∀ g, globalDirectory = some g → ¬ fs.HoldsFile g "config.toml".toList) := by
  obtain ⟨project, global, builtIn⟩ := find_cases fs directory globalDirectory
  refine ⟨directory.getElem?_ancestors, fun _ => rfl, fun p => ?_, fun p => ?_, ?_⟩
  · rw [project, nearest?_ancestors_iff]
  · rw [global, nearest?_ancestors_eq_none_iff, global?_eq_some_iff]
  · rw [builtIn, nearest?_ancestors_eq_none_iff, global?_eq_none_iff]

/-- Two repositories below a settings file. The first has a settings file of its own and, further down, a
directory with the name of one; the second has none. -/
def repositories : FileSystem where
  nodes :=
    [(["hoist-lint.toml".toList], .file "".toUTF8), (["r".toList], .directory),
      (["r".toList, ".git".toList], .directory), (["r".toList, ".hoist-lint.toml".toList], .file "".toUTF8),
      (["r".toList, "src".toList], .directory),
      (["r".toList, "src".toList, "hoist-lint.toml".toList], .directory), (["s".toList], .directory),
      (["s".toList, ".git".toList], .file "".toUTF8), (["s".toList, "src".toList], .directory),
      (["g".toList], .directory), (["g".toList, "config.toml".toList], .file "".toUTF8)]

/-- The settings file beside `.git` is found, and the one above is not. -/
theorem find_firstHolder_repositories :
    (∃ steps d, FirstHolder repositories (Path.ofString "/r//src/.").above? steps d ∧
      .ofString "/r/.hoist-lint.toml" = settingsPath repositories d) ∧
    (∀ steps d, ¬ FirstHolder repositories (Path.ofString "/s/src").above? steps d) ∧
    find repositories (.ofString "/s/src") none (some (.ofString "/g")) =
      .global (.ofString "/g/config.toml") := by
  obtain ⟨_, _, project, _, _⟩ := find_firstHolder repositories (.ofString "/r//src/.") none
  obtain ⟨_, _, _, global, _⟩ := find_firstHolder repositories (.ofString "/s/src") (some (.ofString "/g"))
  have fallen : find repositories (.ofString "/s/src") none (some (.ofString "/g")) =
      .global (.ofString "/g/config.toml") := by decide +kernel
  exact ⟨(project _).mp (by decide +kernel), ((global _).mp fallen).1, fallen⟩

end ConfigurationSource

end ScopeLint
