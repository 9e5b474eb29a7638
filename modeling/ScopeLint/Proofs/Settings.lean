import ScopeLint.Proofs.Upward

/-!
# The settings file that counts for a file

On the way up from a directory the first settings file counts, and no directory is passed that holds
`.git`. Whatever path leads to a file, the search finds the settings file nearest to it, as long as the
path has a slash. Above a bare name is the empty path, which cannot be resolved and has nothing above it,
so for a bare name no directory is searched but the current one.
-/

namespace ScopeLint

namespace FileSystem

open ScopeLint.Path (IsName)

variable {fs : FileSystem} {directory : Place} {d : Path} {name : List Char}

/-- Going up from the spelling of a place leads to the spellings of the places above. -/
theorem above?_pathOf {steps : Nat} (names : ∀ name ∈ directory, IsName name) :
    (pathOf directory).above? steps = some d ↔
      ∃ above, above <+: directory ∧ above.length + steps = directory.length ∧ d = pathOf above := by
  induction steps generalizing d with
  | zero =>
      rw [Path.above?, Option.some.injEq]
      constructor
      · rintro rfl
        exact ⟨directory, List.prefix_refl _, rfl, rfl⟩
      · rintro ⟨above, inside, same, rfl⟩
        rw [inside.eq_of_length same]
  | succ steps ih =>
      rw [Path.above?, Option.bind_eq_some_iff]
      constructor
      · rintro ⟨_, before, parent⟩
        obtain ⟨below, inside, length, rfl⟩ := ih.mp before
        rcases List.eq_nil_or_concat' below with rfl | ⟨above, last, rfl⟩
        · cases parent
        · have named : ∀ name ∈ above ++ [last], IsName name :=
            fun name member => names name (inside.subset member)
          rw [parent?_pathOf named, Option.some.injEq] at parent
          refine ⟨above, (List.prefix_append _ _).trans inside, ?_, parent.symm⟩
          rw [← length, List.length_append, List.length_singleton]
          omega
      · rintro ⟨above, ⟨rest, rfl⟩, length, rfl⟩
        cases rest with
        | nil => simp at length
        | cons last rest =>
            have inside : above ++ [last] <+: above ++ last :: rest :=
              ⟨rest, List.append_assoc _ [last] rest⟩
            refine ⟨pathOf (above ++ [last]), ih.mpr ⟨_, inside, ?_, rfl⟩, ?_⟩
            · rw [← length, List.length_append, List.length_singleton]
              omega
            · exact parent?_pathOf fun name member => names name (inside.subset member)

section

variable (leads : fs.Leads d directory)

include leads

theorem Leads.holds_iff : fs.Holds d name ↔ (fs.node? (directory ++ [name])).isSome := by
  constructor
  · rintro ⟨_, leads', there⟩
    cases leads.follow.symm.trans leads'.follow
    exact there
  · intro there
    exact ⟨directory, leads, there⟩

theorem Leads.holdsFile_iff : fs.HoldsFile d name ↔ (fs.file? (directory ++ [name])).isSome := by
  constructor
  · rintro ⟨_, leads', isFile⟩
    cases leads.follow.symm.trans leads'.follow
    exact isFile
  · intro isFile
    exact ⟨directory, leads, isFile⟩

end

end FileSystem

namespace ConfigurationSource

open FileSystem (Leads Reached pathOf)
open ScopeLint.Path (IsName)

variable {fs : FileSystem} {directory holder place : Place} {name : List Char} {p q : Path}

/-- The name of the settings file that a directory has. -/
inductive SettingsIn (fs : FileSystem) (directory : Place) : List Char → Prop
  | plain (isFile : (fs.file? (directory ++ ["hoist-lint.toml".toList])).isSome) :
      SettingsIn fs directory "hoist-lint.toml".toList
  | dotted (absent : fs.file? (directory ++ ["hoist-lint.toml".toList]) = none)
      (isFile : (fs.file? (directory ++ [".hoist-lint.toml".toList])).isSome) :
      SettingsIn fs directory ".hoist-lint.toml".toList

/-- Whether the nearest settings file on the way up from a directory is the one of `holder`: the
directories below have none, and no `.git` either. -/
structure Nearest (fs : FileSystem) (directory holder : Place) (name : List Char) : Prop where
  above : holder <+: directory
  settings : SettingsIn fs holder name
  passed : ∀ below, below <+: directory → holder.length < below.length →
    (∀ other, ¬ SettingsIn fs below other) ∧ fs.node? (below ++ [".git".toList]) = none

/-- The place of the file that a configuration is read from. -/
def place? (fs : FileSystem) (source : ConfigurationSource) : Option Place :=
  source.path?.bind fs.resolve?

/-! ## The settings file of one directory -/

theorem SettingsIn.isName (settings : SettingsIn fs directory name) : IsName name := by
  cases settings with
  | plain => decide
  | dotted => decide

theorem SettingsIn.isFile (settings : SettingsIn fs directory name) :
    (fs.file? (directory ++ [name])).isSome := by
  cases settings with
  | plain isFile => exact isFile
  | dotted _ isFile => exact isFile

section

variable (leads : fs.Leads q directory)

include leads

theorem holdsSettings_iff : HoldsSettings fs q ↔ ∃ name, SettingsIn fs directory name := by
  rw [HoldsSettings, leads.holdsFile_iff, leads.holdsFile_iff]
  constructor
  · intro holds
    by_cases plain : (fs.file? (directory ++ ["hoist-lint.toml".toList])).isSome
    · exact ⟨_, .plain plain⟩
    · exact ⟨_, .dotted (by simpa using plain) (holds.resolve_left plain)⟩
  · rintro ⟨_, isFile | ⟨_, isFile⟩⟩
    · exact .inl isFile
    · exact .inr isFile

theorem settingsPath_eq (settings : SettingsIn fs directory name) :
    settingsPath fs q = q.join ⟨name⟩ := by
  have isName : IsName "hoist-lint.toml".toList := by decide
  have plain_iff := (FileSystem.isFile_join_iff isName).trans leads.holdsFile_iff
  cases settings with
  | plain isFile => exact if_pos (plain_iff.mpr isFile)
  | dotted absent _ =>
      refine if_neg fun isFile => ?_
      have there := plain_iff.mp isFile
      rw [absent] at there
      cases there

end

/-! ## The way up -/

theorem Nearest.here (settings : SettingsIn fs directory name) : Nearest fs directory directory name where
  above := List.prefix_refl directory
  settings
  passed := fun _ inside longer => absurd inside.length_le (Nat.not_le_of_lt longer)

/-- A settings file in the directory itself is the nearest. -/
theorem Nearest.holder_eq {other : List Char} (nearest : Nearest fs directory holder name)
    (settings : SettingsIn fs directory other) : holder = directory := by
  by_contra apart
  have shorter : holder.length < directory.length :=
    Nat.lt_of_le_of_ne nearest.above.length_le fun same => apart (nearest.above.eq_of_length same)
  exact (nearest.passed directory (List.prefix_refl directory) shorter).1 other settings

section

variable (reached : fs.Reached directory) (isDirectory : fs.isDirectoryAt directory)

include reached isDirectory

/-- The nearest settings file is that of the first holder on the way up from the spelling of a place. -/
theorem Nearest.firstHolder (nearest : Nearest fs directory holder name) :
    FirstHolder fs (pathOf directory).above? (directory.length - holder.length) (pathOf holder) where
  reached := by
    have shorter := nearest.above.length_le
    exact (FileSystem.above?_pathOf reached.isName).mpr ⟨holder, nearest.above, by omega, rfl⟩
  settings := by
    exact (holdsSettings_iff (reached.leads_above isDirectory nearest.above)).mpr ⟨name, nearest.settings⟩
  passed := by
    intro fewer less e found
    obtain ⟨below, inside, length, rfl⟩ := (FileSystem.above?_pathOf reached.isName).mp found
    have leads := reached.leads_above isDirectory inside
    obtain ⟨without, outside⟩ := nearest.passed below inside (by omega)
    refine ⟨mt (holdsSettings_iff leads).mp (not_exists.mpr without), ?_⟩
    rw [leads.holds_iff, outside]
    exact Bool.false_ne_true

theorem exists_nearest {steps : Nat} (first : FirstHolder fs (pathOf directory).above? steps p) :
    ∃ holder name, Nearest fs directory holder name := by
  obtain ⟨holder, above, length, rfl⟩ := (FileSystem.above?_pathOf reached.isName).mp first.reached
  obtain ⟨name, settings⟩ := (holdsSettings_iff (reached.leads_above isDirectory above)).mp first.settings
  refine ⟨holder, name, above, settings, fun below inside longer => ?_⟩
  have leads := reached.leads_above isDirectory inside
  have shorter := inside.length_le
  have found : (pathOf directory).above? (directory.length - below.length) = some (pathOf below) :=
    (FileSystem.above?_pathOf reached.isName).mpr ⟨below, inside, by omega, rfl⟩
  obtain ⟨without, outside⟩ := first.passed _ (by omega) _ found
  refine ⟨not_exists.mp (mt (holdsSettings_iff leads).mpr without), ?_⟩
  simpa [leads.holds_iff] using outside

end

/-! ## From a path to its settings file -/

theorem isFile_of_resolve? (isFile : (fs.file? place).isSome) (resolves : fs.resolve? p = some place) :
    fs.isFile p := by
  rw [FileSystem.isFile, FileSystem.bytes?, resolves]
  exact isFile

section

variable (isFile : (fs.file? place).isSome) (resolves : fs.resolve? p = some place)

include isFile resolves

/-- A path with a slash in it is searched for from the directory of its file. -/
theorem start_of_slash (slash : '/' ∈ p.chars) : start fs p = pathOf place.dropLast ∧
    fs.Reached place.dropLast ∧ fs.isDirectoryAt place.dropLast := by
  obtain ⟨q, above, empty, leads⟩ := FileSystem.exists_parent_leads resolves isFile
  have filled : q.chars ≠ [] := fun chars => empty.mp chars slash
  refine ⟨?_, leads.reached, leads.directory⟩
  rw [start, if_pos (isFile_of_resolve? isFile resolves), above, Option.getD_some, FileSystem.canonical?,
    leads.resolve? filled]
  rfl

/-- A bare name is searched for from the empty path, which no path is above. -/
theorem start_of_bare (bare : '/' ∉ p.chars) :
    start fs p = ⟨[]⟩ ∧ fs.Leads ⟨[]⟩ place.dropLast := by
  obtain ⟨q, above, empty, leads⟩ := FileSystem.exists_parent_leads resolves isFile
  obtain rfl : q = ⟨[]⟩ := congrArg Path.mk (empty.mpr bare)
  refine ⟨?_, leads⟩
  rw [start, if_pos (isFile_of_resolve? isFile resolves), above]
  rfl

theorem forPath_of_nearest (slash : '/' ∈ p.chars) (globalDirectory : Option Path)
    (nearest : Nearest fs place.dropLast holder name) :
    ∃ path, forPath fs p none globalDirectory = .project path ∧
      fs.resolve? path = some (holder ++ [name]) := by
  obtain ⟨begins, reached, isDirectory⟩ := start_of_slash isFile resolves slash
  have leads := reached.leads_above isDirectory nearest.above
  have found : nearest? fs (pathOf place.dropLast).ancestors = some (settingsPath fs (pathOf holder)) :=
    nearest?_ancestors_iff.mpr ⟨_, _, nearest.firstHolder reached isDirectory, rfl⟩
  refine ⟨settingsPath fs (pathOf holder), ?_, ?_⟩
  · rw [forPath, begins, find_eq, found]
    rfl
  · rw [settingsPath_eq leads nearest.settings]
    exact leads.resolve?_join_file nearest.settings.isName nearest.settings.isFile

theorem forPath_of_far (slash : '/' ∈ p.chars) (globalDirectory : Option Path)
    (far : ∀ holder name, ¬ Nearest fs place.dropLast holder name) :
    forPath fs p none globalDirectory = fallback fs globalDirectory := by
  obtain ⟨begins, reached, isDirectory⟩ := start_of_slash isFile resolves slash
  have none : nearest? fs (pathOf place.dropLast).ancestors = none := by
    refine nearest?_ancestors_eq_none_iff.mpr fun steps d first => ?_
    obtain ⟨holder, name, nearest⟩ := exists_nearest reached isDirectory first
    exact far holder name nearest
  rw [forPath, begins, find_eq, none]
  rfl

theorem forPath_bare_of_settings (bare : '/' ∉ p.chars) (globalDirectory : Option Path)
    (settings : SettingsIn fs place.dropLast name) :
    ∃ path, forPath fs p none globalDirectory = .project path ∧
      fs.resolve? path = some (place.dropLast ++ [name]) := by
  obtain ⟨begins, leads⟩ := start_of_bare isFile resolves bare
  refine ⟨(⟨[]⟩ : Path).join ⟨name⟩, ?_, leads.resolve?_join_file settings.isName settings.isFile⟩
  rw [forPath, begins, find_eq, Path.ancestors_nil,
    nearest?_of_holds ((holdsSettings_iff leads).mpr ⟨name, settings⟩), settingsPath_eq leads settings]
  rfl

theorem forPath_bare_of_without (bare : '/' ∉ p.chars) (globalDirectory : Option Path)
    (without : ∀ name, ¬ SettingsIn fs place.dropLast name) :
    forPath fs p none globalDirectory = fallback fs globalDirectory := by
  obtain ⟨begins, leads⟩ := start_of_bare isFile resolves bare
  have none := nearest?_of_without (mt (holdsSettings_iff leads).mp (not_exists.mpr without))
  rw [forPath, begins, find_eq, Path.ancestors_nil, none]
  rfl

end

/-- The global settings file has a name of its own. -/
theorem fallback_place?_ne (globalDirectory : Option Path) (settings : SettingsIn fs holder name) :
    (fallback fs globalDirectory).place? fs ≠ some (holder ++ [name]) := by
  have isName : IsName "config.toml".toList := by decide
  intro same
  rw [fallback] at same
  cases found : global? fs globalDirectory with
  | none =>
      rw [found] at same
      cases same
  | some path =>
      obtain ⟨g, -, -, rfl⟩ := global?_eq_some_iff.mp found
      rw [found] at same
      obtain ⟨above, -, -, ends⟩ := (FileSystem.resolve?_join_name isName).mp same
      obtain ⟨-, sameName⟩ := List.append_inj' ends rfl
      cases settings with
      | plain => exact absurd sameName (by decide)
      | dotted => exact absurd sameName (by decide)

/-- A bare name finds the settings file that a path with a slash finds exactly if this file lies in the
directory itself. -/
theorem place?_bare_eq_iff {bare : Path} (isFile : (fs.file? place).isSome)
    (resolves : fs.resolve? p = some place) (slash : '/' ∈ p.chars)
    (resolves' : fs.resolve? bare = some place) (noSlash : '/' ∉ bare.chars)
    (globalDirectory : Option Path) :
    (forPath fs bare none globalDirectory).place? fs = (forPath fs p none globalDirectory).place? fs ↔
      ∀ holder name, Nearest fs place.dropLast holder name → holder = place.dropLast := by
  by_cases has : ∃ name, SettingsIn fs place.dropLast name
  · obtain ⟨name, settings⟩ := has
    obtain ⟨path, found, leads⟩ :=
      forPath_bare_of_settings isFile resolves' noSlash globalDirectory settings
    obtain ⟨path', found', leads'⟩ :=
      forPath_of_nearest isFile resolves slash globalDirectory (.here settings)
    rw [found, found']
    exact iff_of_true (leads.trans leads'.symm) fun holder name nearest => nearest.holder_eq settings
  · have without := not_exists.mp has
    rw [forPath_bare_of_without isFile resolves' noSlash globalDirectory without]
    by_cases near : ∃ holder name, Nearest fs place.dropLast holder name
    · obtain ⟨holder, name, nearest⟩ := near
      obtain ⟨path, found, leads⟩ := forPath_of_nearest isFile resolves slash globalDirectory nearest
      refine iff_of_false ?_ ?_
      · intro same
        rw [found] at same
        exact fallback_place?_ne globalDirectory nearest.settings (same.trans leads)
      · intro beside
        exact without name (beside holder name nearest ▸ nearest.settings)
    · have far : ∀ holder name, ¬ Nearest fs place.dropLast holder name :=
        fun holder name nearest => near ⟨holder, name, nearest⟩
      rw [forPath_of_far isFile resolves slash globalDirectory far]
      exact iff_of_true rfl fun holder name nearest => absurd nearest (far holder name)

/-- Every path with a slash that leads to a file finds the nearest settings file, and where there is none,
the same fallback. A bare name finds the same settings file exactly if the nearest one lies in the
directory of the file. -/
theorem forPath_spelling (fs : FileSystem) (globalDirectory : Option Path) {place : Place}
    {spelled : Path} (isFile : (fs.file? place).isSome) (resolves : fs.resolve? spelled = some place)
    (slash : '/' ∈ spelled.chars) :
    (∀ holder name, Nearest fs place.dropLast holder name →
      ∃ path, forPath fs spelled none globalDirectory = .project path ∧
        fs.resolve? path = some (holder ++ [name])) ∧
    ((∀ holder name, ¬ Nearest fs place.dropLast holder name) →
      forPath fs spelled none globalDirectory = fallback fs globalDirectory) ∧
    ∀ bare, fs.resolve? bare = some place → '/' ∉ bare.chars →
      ((forPath fs bare none globalDirectory).place? fs =
          (forPath fs spelled none globalDirectory).place? fs ↔
        ∀ holder name, Nearest fs place.dropLast holder name → holder = place.dropLast) := by
  refine ⟨fun holder name nearest => ?_, fun far => ?_, fun bare resolves' noSlash => ?_⟩
  · exact forPath_of_nearest isFile resolves slash globalDirectory nearest
  · exact forPath_of_far isFile resolves slash globalDirectory far
  · exact place?_bare_eq_iff isFile resolves slash resolves' noSlash globalDirectory

/-- A source one directory below the settings file, seen from its own directory. -/
def nested : FileSystem where
  nodes :=
    [(["hoist-lint.toml".toList], .file "".toUTF8), (["d".toList], .directory),
      (["d".toList, "a.js".toList], .file "".toUTF8)]
  current := .ofString "/d"

theorem nested_nearest : Nearest nested ["d".toList] [] "hoist-lint.toml".toList where
  above := List.nil_prefix
  settings := .plain (by decide)
  passed := by
    intro below inside longer
    have length : below.length = 1 := Nat.le_antisymm inside.length_le longer
    obtain rfl := inside.eq_of_length length
    refine ⟨fun other settings => ?_, by decide⟩
    cases settings with
    | plain isFile => exact absurd isFile (by decide)
    | dotted _ isFile => exact absurd isFile (by decide)

theorem forPath_spelling_nested :
    nested.resolve? (.ofString "./a.js") = some ["d".toList, "a.js".toList] ∧
      nested.resolve? (.ofString "a.js") = some ["d".toList, "a.js".toList] ∧
      (∃ path, forPath nested (.ofString "./a.js") none none = .project path ∧
        nested.resolve? path = some ["hoist-lint.toml".toList]) ∧
      (forPath nested (.ofString "a.js") none none).place? nested ≠
        (forPath nested (.ofString "./a.js") none none).place? nested := by
  have dotted : nested.resolve? (.ofString "./a.js") = some ["d".toList, "a.js".toList] := by decide +kernel
  have bare : nested.resolve? (.ofString "a.js") = some ["d".toList, "a.js".toList] := by decide +kernel
  obtain ⟨near, -, same⟩ := forPath_spelling nested none rfl dotted (by decide)
  refine ⟨dotted, bare, near [] _ nested_nearest, ?_⟩
  rw [ne_eq, same _ bare (by decide)]
  intro beside
  cases beside [] _ nested_nearest

/-- A bare name misses the settings file above the directory of its file. -/
theorem forPath_bare_nested :
    forPath nested (.ofString "a.js") none none = .builtIn ∧
      forPath nested (.ofString "./a.js") none none = .project (.ofString "/hoist-lint.toml") ∧
      forPath nested (.ofString "/d/a.js") none none = .project (.ofString "/hoist-lint.toml") := by
  decide +kernel

end ConfigurationSource

end ScopeLint
