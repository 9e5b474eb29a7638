import ScopeLint.Proofs.Alignment
import ScopeLint.Selection

/-!
# What directory patterns exclude

A pattern is asked about the path of a file below the root, and so is its text without the stars, as a
word. For a pattern that names a directory the word decides, since it occurs wherever the pattern
matches. `**/name/**` leaves the word `/name/`, which begins and ends at a slash: it occurs exactly if a
directory above the file has this name. `d/**` leaves a word that begins with the name of a directory
and not with a slash. It occurs at any depth, and in a directory whose name only ends like the first of
`d`, so such a pattern is not tied to the root.
-/

namespace ScopeLint

theorem Component.name_injective : Function.Injective Component.name :=
  fun _ _ => Component.name.inj

namespace Path

variable {names : List (List Char)} {root : Path}

/-- The relative path that goes through directories with these names. -/
def ofNames (names : List (List Char)) : Path :=
  ⟨Text.joinWith '/' names⟩

/-! ## Paths below a root -/

/-- Dropping as many components as the first pieces have leaves the others. -/
theorem dropPieces_append {before later : List (List Char)}
    (begins : ∀ first ∈ later.head?, significant first) :
    dropPieces (before.filter significant).length (before ++ later) = later := by
  induction before with
  | nil =>
      cases later with
      | nil => rfl
      | cons first later => exact if_pos (begins first rfl)
  | cons piece before ih =>
      by_cases kept : significant piece
      · rw [List.filter_cons_of_pos kept, List.cons_append, List.length_cons, dropPieces, if_pos kept]
        exact ih
      · rw [List.filter_cons_of_neg kept, List.cons_append]
        unfold dropPieces
        rw [if_neg kept]
        exact ih

section

variable (isName : ∀ name ∈ names, IsName name) (inhabited : names ≠ [])

include isName

theorem splitHead_ofNames : splitHead (ofNames names).chars = (.none, (ofNames names).chars) := by
  have suits : Head.none.Suits names.head? :=
    fun first begins => (isName first (List.mem_of_mem_head? begins)).kept
  exact splitHead_written suits fun name member => (isName name member).free

theorem head_ofNames : (ofNames names).head = .none := by
  rw [head, splitHead_ofNames isName]

theorem not_isAbsolute_ofNames : ¬ (ofNames names).isAbsolute := by
  rw [isAbsolute, head_ofNames isName]
  decide

include inhabited

theorem splitAt_ofNames : Text.splitAt '/' (ofNames names).chars = names :=
  Text.splitAt_joinWith inhabited fun name member => (isName name member).free

theorem chars_ofNames_ne_nil : (ofNames names).chars ≠ [] := by
  intro empty
  have split := splitAt_ofNames isName inhabited
  rw [empty] at split
  have nameless := isName [] (split ▸ List.mem_cons_self)
  exact absurd nameless.kept (by decide)

theorem pieces_ofNames : (ofNames names).pieces = names := by
  rw [pieces, splitHead_ofNames isName]
  exact splitAt_ofNames isName inhabited

theorem components_ofNames : (ofNames names).components = names.map .name := by
  have kept : names.filter significant = names :=
    List.filter_eq_self.mpr fun name member => (isName name member).kept
  rw [components, head_ofNames isName, pieces_ofNames isName inhabited, kept]
  exact List.map_congr_left fun name member => (isName name member).ofPiece

/-- A path below a root is seen from there in the names that were joined to the root. -/
theorem relativeTo_join_ofNames (root : Path) :
    (root.join (ofNames names)).relativeTo root = ofNames names := by
  have relative := not_isAbsolute_ofNames isName
  have begins : ∀ first ∈ names.head?, significant first :=
    fun first begins => (isName first (List.mem_of_mem_head? begins)).kept
  have trimmed : trimPieces names = names :=
    trimPieces_eq_self fun last ends => (isName last (List.mem_of_getLast? ends)).kept
  by_cases filled : root.chars = []
  · obtain rfl : root = ⟨[]⟩ := congrArg Path.mk filled
    have below : (ofNames names).startsWith ⟨[]⟩ := startsWith_iff.mpr List.nil_prefix
    have none : (⟨[]⟩ : Path).components.length = 0 := rfl
    rw [nil_join, relativeTo, stripBase?, if_pos below, Option.getD_some, none, dropComponents,
      head_ofNames isName, pieces_ofNames isName inhabited, trimmed]
    rfl
  · have below : (root.join (ofNames names)).startsWith root := by
      rw [startsWith_iff, components_join filled relative]
      exact List.prefix_append _ _
    obtain ⟨n, count⟩ := Nat.exists_eq_succ_of_ne_zero
      (mt List.length_eq_zero_iff.mp (components_ne_nil filled))
    obtain ⟨before, same, sameHead, split⟩ := pieces_join filled relative
    have left : n + 1 - root.head.components.length = (before.filter significant).length := by
      rw [← Nat.succ_eq_add_one, ← count, same, components, List.length_append, List.length_map,
        Nat.add_sub_cancel_left]
    rw [relativeTo, stripBase?, if_pos below, Option.getD_some, count, dropComponents, sameHead, split,
      left, splitAt_ofNames isName inhabited, dropPieces_append begins, trimmed]
    rfl

end

end Path

namespace Selection

open ScopeLint.Path (IsName)
open Glob (IsLiteral)

variable {g : Glob} {first name word : List Char} {more names : List (List Char)}

/-! ## The word of a pattern -/

theorem fragment_literal (literal : IsLiteral word) (tokens : List Glob.Token) :
    fragment { source := word ++ ['/', '*', '*'], tokens } = word ++ ['/'] := by
  have free : '*' ∉ word ++ ['/'] := by
    rw [List.mem_append, not_or]
    exact ⟨fun star => (literal '*' star).1 rfl, by decide⟩
  calc Text.delete ['*', '*'] (word ++ ['/', '*', '*'])
    _ = Text.delete ['*', '*'] ((word ++ ['/']) ++ ['*', '*']) := by rw [List.append_assoc]; rfl
    _ = (word ++ ['/']) ++ Text.delete ['*', '*'] ['*', '*'] := Text.deleteFrom_append free _
    _ = word ++ ['/'] := List.append_nil _

theorem fragment_deep (literal : IsLiteral word) (tokens : List Glob.Token) :
    fragment { source := '*' :: '*' :: '/' :: (word ++ ['/', '*', '*']), tokens } =
      '/' :: (word ++ ['/']) :=
  congrArg ('/' :: ·) (fragment_literal literal tokens)

theorem one_lt_byteLength (filled : word ≠ []) : 1 < Text.byteLength (word ++ ['/']) := by
  obtain ⟨c, cs, rfl⟩ := List.exists_cons_of_ne_nil filled
  have positive := c.utf8Size_pos
  have slash : '/'.utf8Size = 1 := rfl
  rw [Text.byteLength_append, Text.byteLength_cons, Text.byteLength_cons, slash]
  omega

/-! ## One exclude pattern -/

theorem ofPatterns_single {text : List Char} (read : Glob.parse text = .ok g) :
    ofPatterns [text] [] = .ok { excludes := [g] } := by
  rw [ofPatterns, List.mapM_cons, read]
  rfl

theorem isLiteral_joinWith {pieces : List (List Char)} (literal : ∀ piece ∈ pieces, IsLiteral piece) :
    IsLiteral (Text.joinWith '/' pieces) := by
  induction pieces with
  | nil => exact nofun
  | cons piece pieces ih =>
      obtain ⟨here, later⟩ := List.forall_mem_cons.mp literal
      by_cases empty : pieces = []
      · rw [empty]
        exact here
      · rw [Text.joinWith_cons piece empty]
        refine List.forall_mem_append.mpr ⟨here, List.forall_mem_cons.mpr ⟨by decide, ih later⟩⟩

section

variable (isName : ∀ name ∈ names, IsName name) (inhabited : names ≠ [])

include isName

theorem dropWhile_joinWith :
    (Text.joinWith '/' names).dropWhile (· = '/') = Text.joinWith '/' names := by
  have relative := mt Path.isAbsolute_iff.mpr (Path.not_isAbsolute_ofNames isName)
  rw [Path.ofNames] at relative
  cases written : Text.joinWith '/' names with
  | nil => rfl
  | cons c rest =>
      rw [written] at relative
      exact List.dropWhile_cons_of_neg (by simpa using relative)

include inhabited

/-- A pattern that matches only where its word occurs leaves out the files whose path has the word. -/
theorem leavesOut_iff_word (same : fragment g = word) (long : 1 < Text.byteLength word)
    (occurs : ∀ relative, g.accepts relative → word <:+: '/' :: relative) (root : Path) :
    leavesOut { excludes := [g] } root (root.join (.ofNames names)) ↔
      word <:+: '/' :: Text.joinWith '/' names := by
  have dropped : leavesOut { excludes := [g] } root (root.join (.ofNames names)) =
      drops g (Text.joinWith '/' names) := by
    rw [leavesOut, Path.relativeTo_join_ofNames isName inhabited]
    simp [Path.ofNames]
  rw [dropped, drops, same, dropWhile_joinWith isName, Bool.or_eq_true, Bool.and_eq_true,
    decide_eq_true_iff, Text.contains_iff]
  exact ⟨fun either => either.elim (occurs _) And.right, fun found => .inr ⟨long, found⟩⟩

/-- The names of a path from the root are its pieces, behind the empty one before the first slash. -/
theorem splitAt_rooted : Text.splitAt '/' ('/' :: Text.joinWith '/' names) = [] :: names := by
  rw [Text.splitAt_sep]
  exact congrArg ([] :: ·) (Path.splitAt_ofNames isName inhabited)

end

/-! ## Directories of a name -/

theorem mem_dropLast_iff : name ∈ names.dropLast ↔
    ∃ above below, names = above ++ name :: below ∧ below ≠ [] := by
  constructor
  · intro member
    obtain ⟨above, between, split⟩ := List.append_of_mem member
    rcases List.eq_nil_or_concat' names with rfl | ⟨start, last, rfl⟩
    · cases member
    · rw [List.dropLast_concat] at split
      exact ⟨above, between ++ [last], by rw [split]; simp, by simp⟩
  · rintro ⟨above, below, rfl, filled⟩
    obtain ⟨next, below, rfl⟩ := List.exists_cons_of_ne_nil filled
    rw [List.dropLast_append_of_ne_nil (List.cons_ne_nil _ _), List.dropLast_cons_cons]
    simp

/-- The word of a name between slashes occurs in a path from the root exactly if a directory in it has
this name. -/
theorem slashed_infix_iff (free : '/' ∉ name) (isName : ∀ other ∈ names, IsName other)
    (inhabited : names ≠ []) :
    '/' :: (name ++ ['/']) <:+: '/' :: Text.joinWith '/' names ↔ name ∈ names.dropLast := by
  have freeAll : ∀ piece ∈ [[], name], '/' ∉ piece := by
    simpa using free
  have word : '/' :: (name ++ ['/']) = Text.joinWith '/' [[], name] ++ ['/'] := rfl
  rw [word, Text.joined_infix_iff freeAll, splitAt_rooted isName inhabited, mem_dropLast_iff]
  -- the word begins with an empty piece, which ends any other, so only the name itself is compared
  constructor
  · rintro ⟨before, holder, below, split, _, filled⟩
    cases before with
    | nil =>
        obtain ⟨_, rfl⟩ := List.cons.inj split
        exact ⟨[], below, rfl, filled⟩
    | cons empty before =>
        obtain ⟨_, rfl⟩ := List.cons.inj split
        exact ⟨before ++ [holder], below, by simp, filled⟩
  · rintro ⟨above, below, rfl, filled⟩
    rcases List.eq_nil_or_concat' above with rfl | ⟨before, holder, rfl⟩
    · exact ⟨[], [], below, rfl, List.nil_suffix, filled⟩
    · exact ⟨[] :: before, holder, below, by simp, List.nil_suffix, filled⟩

/-- The pattern for the files in directories of a name. -/
def anyDepth (name : List Char) : List Char :=
  '*' :: '*' :: '/' :: (name ++ ['/', '*', '*'])

/-- With the pattern for a name alone, a file is left out exactly if one of the directories above it,
at whatever depth, has this name. -/
theorem leavesOut_anyDepth (name : List Char) (free : '/' ∉ name) (literal : IsLiteral name) :
    ∃ s, ofPatterns [anyDepth name] [] = .ok s ∧
      ∀ (root : Path) (names : List (List Char)), (∀ other ∈ names, IsName other) → names ≠ [] →
        (s.leavesOut root (root.join (.ofNames names)) ↔
          .name name ∈ (Path.ofNames names).components.dropLast) := by
  refine ⟨_, ofPatterns_single (Glob.parse_deep literal), fun root names isName inhabited => ?_⟩
  refine (leavesOut_iff_word isName inhabited (fragment_deep literal _)
    (one_lt_byteLength (List.cons_ne_nil '/' name)) (fun relative accepted => ?_) root).trans ?_
  · rw [Glob.accepts_eq_matchTokens] at accepted
    exact Glob.infix_of_matchTokens_deep accepted
  · rw [slashed_infix_iff free isName inhabited, Path.components_ofNames isName inhabited,
      ← List.map_dropLast, List.mem_map_of_injective Component.name_injective]

/-- A directory counts by its whole name, and a file does not count. -/
theorem leavesOut_anyDepth_dist :
    '/' ∉ "dist".toList ∧ IsLiteral "dist".toList ∧ ∃ s, ofPatterns [anyDepth "dist".toList] [] = .ok s ∧
      s.leavesOut (.ofString "/r") (.join (.ofString "/r")
        (.ofNames ["a".toList, "dist".toList, "b.js".toList])) ∧
      ¬ s.leavesOut (.ofString "/r") (.join (.ofString "/r")
        (.ofNames ["a.dist".toList, "dist-x".toList, "dist".toList])) := by
  have free : '/' ∉ "dist".toList := by decide
  have literal : IsLiteral "dist".toList := by decide
  obtain ⟨s, read, decided⟩ := leavesOut_anyDepth "dist".toList free literal
  refine ⟨free, literal, s, read, ?_, ?_⟩
  · rw [decided _ _ (by decide) (by decide)]
    decide
  · rw [decided _ _ (by decide) (by decide)]
    decide

/-! ## A directory below the root -/

/-- Whether the names `first :: more` of a directory stand in a row above the last of `names`, behind those
of `before`. The first of them may be no more than the end of the name `holder`. -/
structure Occurs (first : List Char) (more names before : List (List Char)) (holder : List Char) :
    Prop where
  ends : first <:+ holder
  row : ∃ below, below ≠ [] ∧ names = before ++ holder :: (more ++ below)

/-- Whether the components of a directory begin those of a path and leave some of them. -/
def LiesIn (p directory : Path) : Prop :=
  directory.components <+: p.components ∧ directory.components ≠ p.components

instance (p directory : Path) : Decidable (LiesIn p directory) :=
  inferInstanceAs (Decidable (_ ∧ _))

/-- The pattern for the files below a directory. -/
def anchored (directory : List (List Char)) : List Char :=
  Text.joinWith '/' directory ++ ['/', '*', '*']

theorem joined_infix_iff_occurs (directory : ∀ name ∈ first :: more, IsName name)
    (isName : ∀ name ∈ names, IsName name) (inhabited : names ≠ []) :
    Text.joinWith '/' (first :: more) ++ ['/'] <:+: '/' :: Text.joinWith '/' names ↔
      ∃ before holder, Occurs first more names before holder := by
  have free : ∀ name ∈ first :: more, '/' ∉ name := fun name member => (directory name member).free
  have filled : first ≠ [] := (Path.significant_iff.mp (directory first List.mem_cons_self).kept).1
  rw [Text.joined_infix_iff free, splitAt_rooted isName inhabited]
  constructor
  · rintro ⟨before, holder, below, split, ends, left⟩
    cases before with
    | nil =>
        -- nothing but the empty name ends the empty piece
        obtain ⟨rfl, _⟩ := List.cons.inj split
        exact absurd (List.suffix_nil.mp ends) filled
    | cons empty before =>
        obtain ⟨_, split⟩ := List.cons.inj split
        exact ⟨before, holder, ends, below, left, split⟩
  · rintro ⟨before, holder, ends, below, left, rfl⟩
    exact ⟨[] :: before, holder, below, rfl, ends, left⟩

theorem LiesIn.occurs (directory : ∀ name ∈ first :: more, IsName name)
    (isName : ∀ name ∈ names, IsName name) (inhabited : names ≠ [])
    (inside : LiesIn (.ofNames names) (.ofNames (first :: more))) :
    Occurs first more names [] first := by
  obtain ⟨begins, proper⟩ := inside
  rw [Path.components_ofNames isName inhabited,
    Path.components_ofNames directory (List.cons_ne_nil first more)] at begins proper
  obtain ⟨below, rfl⟩ := (List.prefix_map_iff_of_injective Component.name_injective).mp begins
  refine ⟨List.suffix_refl first, below, ?_, rfl⟩
  rintro rfl
  rw [List.append_nil] at proper
  exact proper rfl

theorem exists_leavesOut_iff_occurs (directory : ∀ name ∈ first :: more, IsName name)
    (literal : ∀ name ∈ first :: more, IsLiteral name) :
    ∃ s, ofPatterns [anchored (first :: more)] [] = .ok s ∧
      ∀ (root : Path) (names : List (List Char)), (∀ name ∈ names, IsName name) → names ≠ [] →
        (s.leavesOut root (root.join (.ofNames names)) ↔
          ∃ before holder, Occurs first more names before holder) := by
  have plain := isLiteral_joinWith literal
  have filled := Path.chars_ofNames_ne_nil directory (List.cons_ne_nil first more)
  refine ⟨_, ofPatterns_single (Glob.parse_literal plain), fun root names isName inhabited => ?_⟩
  refine (leavesOut_iff_word isName inhabited (fragment_literal plain _) (one_lt_byteLength filled)
    (fun relative accepted => ?_) root).trans (joined_infix_iff_occurs directory isName inhabited)
  rw [Glob.accepts_eq_matchTokens, Glob.matchTokens_literal_deep] at accepted
  exact accepted.isInfix.trans (List.suffix_cons '/' relative).isInfix

/-- With the pattern for a directory below the root alone, a file is left out exactly if the names of the
directory occur in a row above it, the first perhaps only as the end of a name. So the pattern is tied to
the root, for a file, exactly if they occur in its path only when it lies in the directory. -/
theorem leavesOut_anchored (first : List Char) (more : List (List Char))
    (directory : ∀ name ∈ first :: more, IsName name)
    (literal : ∀ name ∈ first :: more, IsLiteral name) :
    ∃ s, ofPatterns [anchored (first :: more)] [] = .ok s ∧
      ∀ (root : Path) (names : List (List Char)), (∀ name ∈ names, IsName name) → names ≠ [] →
        (s.leavesOut root (root.join (.ofNames names)) ↔
          ∃ before holder, Occurs first more names before holder) ∧
        ((s.leavesOut root (root.join (.ofNames names)) ↔
            LiesIn (.ofNames names) (.ofNames (first :: more))) ↔
          ∀ before holder, Occurs first more names before holder →
            LiesIn (.ofNames names) (.ofNames (first :: more))) := by
  obtain ⟨s, read, left⟩ := exists_leavesOut_iff_occurs directory literal
  refine ⟨s, read, fun root names isName inhabited => ⟨left root names isName inhabited, ?_⟩⟩
  rw [left root names isName inhabited]
  constructor
  · intro tied before holder occurs
    exact tied.mp ⟨before, holder, occurs⟩
  · intro tied
    refine ⟨?_, fun inside => ⟨[], first, inside.occurs directory isName inhabited⟩⟩
    rintro ⟨before, holder, occurs⟩
    exact tied before holder occurs

/-- A copy of a directory further down, in one whose name ends like the first, is left out as well. -/
theorem leavesOut_anchored_copy :
    (∀ name ∈ ["lib".toList, "vendor".toList], IsName name) ∧
      (∀ name ∈ ["lib".toList, "vendor".toList], IsLiteral name) ∧
      ∃ s, ofPatterns [anchored ["lib".toList, "vendor".toList]] [] = .ok s ∧
        s.leavesOut (.ofString "/r") (.join (.ofString "/r")
          (.ofNames ["src".toList, "my-lib".toList, "vendor".toList, "a.js".toList])) := by
  have directory : ∀ name ∈ ["lib".toList, "vendor".toList], IsName name := by decide
  have literal : ∀ name ∈ ["lib".toList, "vendor".toList], IsLiteral name := by decide
  obtain ⟨s, read, left⟩ := leavesOut_anchored "lib".toList ["vendor".toList] directory literal
  refine ⟨directory, literal, s, read, (left _ _ (by decide) (by decide)).1.mpr ?_⟩
  exact ⟨["src".toList], "my-lib".toList, ⟨"my-".toList, rfl⟩, ["a.js".toList], by decide, rfl⟩

/-- The pattern for `vendor` leaves out files that lie in other directories. -/
theorem leavesOut_astray : ∃ s, ofPatterns [anchored ["vendor".toList]] [] = .ok s ∧
    s.leavesOut (.ofString "/r") (.join (.ofString "/r") (.ofNames ["myvendor".toList, "b.js".toList])) ∧
    ¬ LiesIn (.ofNames ["myvendor".toList, "b.js".toList]) (.ofNames ["vendor".toList]) ∧
    s.leavesOut (.ofString "/r")
      (.join (.ofString "/r") (.ofNames ["lib".toList, "vendor".toList, "c.js".toList])) ∧
    ¬ LiesIn (.ofNames ["lib".toList, "vendor".toList, "c.js".toList]) (.ofNames ["vendor".toList]) :=
  ⟨_, rfl, by decide +kernel, by decide +kernel, by decide +kernel, by decide +kernel⟩

end Selection

end ScopeLint
