import Mathlib.Data.List.Infix
import Mathlib.Data.List.TakeWhile
import ScopeLint.Proofs.Components

/-!
# Joining paths and going up

Joining writes one text after another, so it is associative, and its components are those of both paths
in a row. Only the head of the second path is lost on the way. The path above another one has the same
head and all components but the last; it is empty where the text has no slash.
-/

namespace ScopeLint

namespace Text

/-- What stands on the two sides of a separator is split apart. -/
theorem splitAt_append_cons (sep : Char) (cs ds : List Char) :
    splitAt sep (cs ++ sep :: ds) = splitAt sep cs ++ splitAt sep ds := by
  induction cs with
  | nil => exact splitAt_sep sep ds
  | cons c cs ih =>
      by_cases same : c = sep
      · rw [same, List.cons_append, splitAt_sep, splitAt_sep, ih, List.cons_append]
      · obtain ⟨piece, pieces, split, longer⟩ := splitAt_cons_of_ne same cs
        rw [longer, List.cons_append, splitAt, if_neg same, ih, split]
        rfl

theorem joinWith_append {sep : Char} {pieces later : List (List Char)} (inhabited : pieces ≠ [])
    (filled : later ≠ []) :
    joinWith sep (pieces ++ later) = joinWith sep pieces ++ sep :: joinWith sep later := by
  induction pieces with
  | nil => exact absurd rfl inhabited
  | cons piece pieces ih =>
      cases pieces with
      | nil =>
          obtain ⟨next, later, rfl⟩ := List.exists_cons_of_ne_nil filled
          rfl
      | cons next pieces =>
          have rest := ih (List.cons_ne_nil _ _)
          rw [List.cons_append] at rest
          rw [List.cons_append, List.cons_append, joinWith, rest, joinWith, List.append_assoc]
          rfl

theorem joinWith_concat {sep : Char} {pieces : List (List Char)} (inhabited : pieces ≠ [])
    (piece : List Char) : joinWith sep (pieces ++ [piece]) = joinWith sep pieces ++ sep :: piece :=
  joinWith_append inhabited (List.cons_ne_nil piece [])

end Text

namespace Path

variable {a b p : Path} {piece last : List Char}

/-- Whether a text can be the name of a file or a directory. -/
structure IsName (piece : List Char) : Prop where
  kept : significant piece
  free : '/' ∉ piece
  other : piece ≠ ['.', '.']

instance (piece : List Char) : Decidable (IsName piece) :=
  decidable_of_iff (significant piece ∧ '/' ∉ piece ∧ piece ≠ ['.', '.'])
    ⟨fun parts => ⟨parts.1, parts.2.1, parts.2.2⟩,
      fun isName => ⟨isName.kept, isName.free, isName.other⟩⟩

theorem IsName.ofPiece (isName : IsName piece) : Component.ofPiece piece = .name piece :=
  if_neg isName.other

/-- The components of a path after its head. -/
def steps (p : Path) : List Component :=
  (p.pieces.filter significant).map Component.ofPiece

theorem components_eq (p : Path) : p.components = p.head.components ++ p.steps :=
  rfl

/-- Only the empty text has no components. -/
theorem components_ne_nil (filled : p.chars ≠ []) : p.components ≠ [] := by
  rw [components_eq]
  cases head : p.head with
  | root => exact List.cons_ne_nil _ _
  | current => exact List.cons_ne_nil _ _
  | none =>
      have kept := significant_first filled head
      have body : (splitHead p.chars).2 = p.chars := by
        have whole := splitHead_chars p.chars
        rw [Path.head] at head
        rwa [head] at whole
      have first : p.chars.takeWhile (· ≠ '/') ∈ p.pieces := by
        refine List.mem_of_mem_head? ?_
        rw [pieces, body, Text.head?_splitAt]
        rfl
      intro empty
      have none : p.pieces.filter significant = [] := List.map_eq_nil_iff.mp empty
      have member := List.mem_filter.mpr ⟨first, kept⟩
      rw [none] at member
      cases member

theorem isName_of_mem_components {name : List Char} (member : .name name ∈ p.components) :
    IsName name := by
  have inSteps : .name name ∈ p.steps := by
    refine (List.mem_append.mp member).resolve_left fun inHead => ?_
    cases head : p.head <;> simp [head, Head.components] at inHead
  obtain ⟨piece, inPieces, same⟩ := List.mem_map.mp inSteps
  obtain ⟨inside, kept⟩ := List.mem_filter.mp inPieces
  rw [Component.ofPiece] at same
  split at same
  · cases same
  · rename_i other
    cases same
    exact ⟨kept, notMem_of_mem_pieces inside, other⟩

/-- What a text can begin with. -/
theorem splitHead_cases (cs : List Char) : (∃ body, cs = '/' :: body) ∨ cs = ['.'] ∨
    (∃ body, cs = '.' :: '/' :: body) ∨ splitHead cs = (.none, cs) := by
  unfold splitHead
  split
  · exact .inl ⟨_, rfl⟩
  · exact .inr (.inl rfl)
  · exact .inr (.inr (.inl ⟨_, rfl⟩))
  · exact .inr (.inr (.inr rfl))

theorem isAbsolute_iff : p.isAbsolute ↔ p.chars.head? = some '/' := by
  obtain ⟨chars⟩ := p
  rw [isAbsolute, head, decide_eq_true_iff]
  rcases splitHead_cases chars with ⟨body, rfl⟩ | rfl | ⟨body, rfl⟩ | bare
  · simp [splitHead]
  · simp [splitHead]
  · simp [splitHead]
  · refine ⟨fun rooted => ?_, fun first => ?_⟩
    · rw [bare] at rooted
      cases rooted
    · obtain ⟨body, rfl⟩ := List.head?_eq_some_iff.mp first
      rfl

/-! ## Joining -/

/-- The slash that joining puts after a path. -/
def seam (a : Path) : List Char :=
  match a.chars.getLast? with
  | some c => if c = '/' then [] else ['/']
  | none => []

theorem join_of_isAbsolute (rooted : b.isAbsolute) : a.join b = b :=
  if_pos rooted

theorem join_eq (relative : ¬ b.isAbsolute) : a.join b = ⟨a.chars ++ (a.seam ++ b.chars)⟩ := by
  rw [join, if_neg relative, seam]
  cases last : a.chars.getLast? with
  | none =>
      rw [List.getLast?_eq_none_iff.mp last]
      rfl
  | some c =>
      dsimp only
      split <;> rfl

theorem nil_join (b : Path) : (⟨[]⟩ : Path).join b = b := by
  by_cases rooted : b.isAbsolute
  · exact join_of_isAbsolute rooted
  · exact join_eq rooted

theorem isAbsolute_join : (a.join b).isAbsolute ↔ a.isAbsolute ∨ b.isAbsolute := by
  by_cases rooted : b.isAbsolute
  · simp [join_of_isAbsolute rooted, rooted]
  · rw [join_eq rooted, isAbsolute_iff, isAbsolute_iff, isAbsolute_iff]
    rw [isAbsolute_iff] at rooted
    cases chars : a.chars with
    | nil => simp [seam, chars]
    | cons c cs => simp [rooted]

/-- A path that already has a slash after it gets no other one. -/
theorem seam_append_seam (a : Path) : seam ⟨a.chars ++ a.seam⟩ = [] := by
  cases last : a.chars.getLast? with
  | none => simp [seam, last]
  | some c =>
      by_cases slash : c = '/'
      · simp [seam, last, slash]
      · simp [seam, last, slash]

theorem seam_append_of_ne_nil (filled : b.chars ≠ []) (cs : List Char) :
    seam ⟨cs ++ b.chars⟩ = b.seam := by
  rw [seam, seam, List.getLast?_append_of_ne_nil _ filled]

theorem join_assoc (a b c : Path) : a.join (b.join c) = (a.join b).join c := by
  by_cases rootedC : c.isAbsolute
  · rw [join_of_isAbsolute rootedC, join_of_isAbsolute rootedC, join_of_isAbsolute rootedC]
  by_cases rootedB : b.isAbsolute
  · rw [join_of_isAbsolute rootedB, join_of_isAbsolute (isAbsolute_join.mpr (.inl rootedB))]
  have relative : ¬ (b.join c).isAbsolute := fun rooted =>
    (isAbsolute_join.mp rooted).elim rootedB rootedC
  rw [join_eq relative, join_eq rootedC, join_eq rootedC, join_eq rootedB]
  by_cases empty : b.chars = []
  · have none : b.seam = [] := by rw [seam, empty]; rfl
    simp [empty, none, seam_append_seam]
  · have seams := seam_append_of_ne_nil empty (a.chars ++ a.seam)
    rw [List.append_assoc] at seams
    simp [seams]

/-- Text that is joined to a path comes after the path's own head. -/
theorem splitHead_append (filled : a.chars ≠ []) (cs : List Char) :
    splitHead (a.chars ++ (a.seam ++ cs)) = (a.head, (splitHead a.chars).2 ++ (a.seam ++ cs)) := by
  obtain ⟨chars⟩ := a
  rw [head]
  rcases splitHead_cases chars with ⟨body, rfl⟩ | rfl | ⟨body, rfl⟩ | bare
  · rfl
  · rfl
  · rfl
  · have kept := significant_first filled (by rw [bare])
    have free : '/' ∉ chars.takeWhile (· ≠ '/') := by
      intro inside
      simpa using List.mem_takeWhile_imp inside
    have read := splitHead_none kept free (chars.dropWhile (· ≠ '/') ++ (seam ⟨chars⟩ ++ cs))
    rw [← List.append_assoc, List.takeWhile_append_dropWhile] at read
    rw [read, bare]

/-- Text that is joined to a path is split into pieces of its own. -/
theorem exists_pieces (filled : a.chars ≠ []) :
    ∃ before, before.filter significant = a.pieces.filter significant ∧
      ∀ cs, Text.splitAt '/' ((splitHead a.chars).2 ++ (a.seam ++ cs)) =
        before ++ Text.splitAt '/' cs := by
  obtain ⟨c, last⟩ := Option.ne_none_iff_exists'.mp (mt List.getLast?_eq_none_iff.mp filled)
  by_cases slash : c = '/'
  · have noSeam : a.seam = [] := by simp [seam, last, slash]
    have whole := splitHead_chars a.chars
    rcases List.eq_nil_or_concat' (splitHead a.chars).2 with empty | ⟨body, d, ends⟩
    · refine ⟨[], ?_, fun cs => ?_⟩
      · rw [pieces, empty]
        rfl
      · rw [empty, noSeam]
        rfl
    · have same : d = '/' := by
        rw [← whole, ends, ← List.append_assoc, List.getLast?_concat, slash] at last
        exact Option.some.inj last
      refine ⟨Text.splitAt '/' body, ?_, fun cs => ?_⟩
      · rw [pieces, ends, same, Text.splitAt_append_cons, List.filter_append]
        exact (List.append_nil _).symm
      · rw [ends, same, noSeam, List.append_assoc]
        exact Text.splitAt_append_cons '/' body cs
  · have oneSeam : a.seam = ['/'] := by simp [seam, last, slash]
    refine ⟨a.pieces, rfl, fun cs => ?_⟩
    rw [oneSeam]
    exact Text.splitAt_append_cons '/' _ cs

theorem pieces_join (filled : a.chars ≠ []) (relative : ¬ b.isAbsolute) :
    ∃ before, before.filter significant = a.pieces.filter significant ∧
      (a.join b).head = a.head ∧ (a.join b).pieces = before ++ Text.splitAt '/' b.chars := by
  obtain ⟨before, same, split⟩ := exists_pieces filled
  refine ⟨before, same, ?_, ?_⟩
  · rw [join_eq relative, head, splitHead_append filled]
  · rw [join_eq relative, pieces, splitHead_append filled, split]

/-- The text of a relative path is split into its pieces, but for a `.` that is its head. -/
theorem splitAt_chars (relative : ¬ p.isAbsolute) : Text.splitAt '/' p.chars = p.pieces ∨
    ∃ rest, Text.splitAt '/' p.chars = ['.'] :: rest ∧ p.pieces = [] :: rest := by
  obtain ⟨chars⟩ := p
  rw [pieces]
  rcases splitHead_cases chars with ⟨body, rfl⟩ | rfl | ⟨body, rfl⟩ | bare
  · exact absurd rfl relative
  · exact .inr ⟨[], rfl, rfl⟩
  · exact .inr ⟨Text.splitAt '/' body, rfl, rfl⟩
  · exact .inl (by rw [bare])

theorem components_join (filled : a.chars ≠ []) (relative : ¬ b.isAbsolute) :
    (a.join b).components = a.components ++ b.steps := by
  obtain ⟨before, same, sameHead, split⟩ := pieces_join filled relative
  have kept : (Text.splitAt '/' b.chars).filter significant = b.pieces.filter significant := by
    rcases splitAt_chars relative with equal | ⟨rest, texts, pieces⟩
    · rw [equal]
    · rw [texts, pieces]
      rfl
  rw [components, sameHead, split, List.filter_append, same, kept, List.map_append,
    ← List.append_assoc]
  rfl

/-- A component that a joined path ends in is one of the second path. -/
theorem getLast?_pieces_of_join (ends : (a.join b).pieces.getLast? = some last)
    (kept : significant last) : b.pieces.getLast? = some last := by
  by_cases rooted : b.isAbsolute
  · rwa [join_of_isAbsolute rooted] at ends
  by_cases empty : a.chars = []
  · obtain rfl : a = ⟨[]⟩ := congrArg Path.mk empty
    rwa [nil_join] at ends
  obtain ⟨before, -, -, split⟩ := pieces_join empty rooted
  rw [split, List.getLast?_append_of_ne_nil _ (Text.splitAt_ne_nil _ _)] at ends
  rcases splitAt_chars rooted with same | ⟨rest, texts, pieces⟩
  · rwa [same] at ends
  · cases rest with
    | nil =>
        -- the text is a single dot, which is no component
        rw [texts] at ends
        cases ends
        cases kept
    | cons next rest =>
        rw [texts, List.getLast?_cons_cons] at ends
        rwa [pieces, List.getLast?_cons_cons]

/-! ## Names at the end of a path -/

theorem IsName.not_isAbsolute (isName : IsName piece) : ¬ (⟨piece⟩ : Path).isAbsolute := by
  rw [isAbsolute_iff]
  exact fun first => isName.free (List.mem_of_mem_head? first)

theorem IsName.seam (isName : IsName piece) : (⟨piece⟩ : Path).seam = ['/'] := by
  rw [Path.seam]
  split
  · rename_i c last
    have other : c ≠ '/' := by
      rintro rfl
      exact isName.free (List.mem_of_getLast? last)
    exact if_neg other
  · rename_i empty
    exact absurd (List.getLast?_eq_none_iff.mp empty) (significant_iff.mp isName.kept).1

theorem IsName.splitHead (isName : IsName piece) : splitHead piece = (.none, piece) := by
  have bare := splitHead_none isName.kept isName.free []
  rwa [List.append_nil] at bare

theorem IsName.pieces (isName : IsName piece) : (⟨piece⟩ : Path).pieces = [piece] := by
  rw [Path.pieces, isName.splitHead]
  exact Text.splitAt_of_notMem isName.free

theorem IsName.steps (isName : IsName piece) : (⟨piece⟩ : Path).steps = [.name piece] := by
  rw [Path.steps, isName.pieces, List.filter_cons_of_pos isName.kept, List.filter_nil,
    List.map_singleton, isName.ofPiece]

theorem IsName.components (isName : IsName piece) :
    (⟨piece⟩ : Path).components = [.name piece] := by
  have noHead : (⟨piece⟩ : Path).head = .none := by rw [head, isName.splitHead]
  rw [components_eq, noHead, isName.steps]
  rfl

theorem components_join_name (isName : IsName piece) (a : Path) :
    (a.join ⟨piece⟩).components = a.components ++ [.name piece] := by
  by_cases filled : a.chars = []
  · obtain rfl : a = ⟨[]⟩ := congrArg Path.mk filled
    rw [nil_join, isName.components]
    rfl
  · rw [components_join filled isName.not_isAbsolute, isName.steps]

theorem endsInDirectory_join_name (isName : IsName piece) (a : Path) :
    (a.join ⟨piece⟩).endsInDirectory = false := by
  have last : ∃ before, (a.join ⟨piece⟩).pieces = before ++ [piece] := by
    by_cases filled : a.chars = []
    · obtain rfl : a = ⟨[]⟩ := congrArg Path.mk filled
      exact ⟨[], by rw [nil_join, isName.pieces]; rfl⟩
    · obtain ⟨before, -, -, split⟩ := pieces_join filled isName.not_isAbsolute
      exact ⟨before, by rw [split, Text.splitAt_of_notMem isName.free]⟩
  obtain ⟨before, split⟩ := last
  obtain ⟨_, other⟩ := significant_iff.mp isName.kept
  rw [endsInDirectory, split, List.reverse_concat]
  cases before.reverse with
  | nil => simp [other]
  | cons => simp [isName.kept]

/-! ## The path above a path -/

theorem ancestors_nil : (⟨[]⟩ : Path).ancestors = [⟨[]⟩] :=
  rfl

theorem Head.Suits.mono {head : Head} {first first' : Option (List Char)} (suits : head.Suits first)
    (fewer : ∀ piece ∈ first', piece ∈ first) : head.Suits first' := by
  cases head with
  | root => trivial
  | current => exact fun piece begins => suits piece (fewer piece begins)
  | none => exact fun piece begins => suits piece (fewer piece begins)

theorem chars_eq (p : Path) : p.chars = p.head.chars ++ Text.joinWith '/' p.pieces := by
  rw [pieces, Text.joinWith_splitAt]
  exact (splitHead_chars p.chars).symm

theorem free_of_mem_trimmed {before : List (List Char)} (split : p.pieces = before ++ [last]) :
    ∀ piece ∈ trimPieces before, '/' ∉ piece := by
  intro piece member
  have inside := List.mem_append_left [last] ((trimPieces_isPrefix before).subset member)
  exact notMem_of_mem_pieces (split ▸ inside)

section

variable {before : List (List Char)} (split : p.pieces = before ++ [last]) (kept : significant last)

include split kept

/-- A path that ends in a component has one above it, whose text is the rest without what stood between. -/
theorem parent?_eq :
    p.parent? = some ⟨p.head.chars ++ Text.joinWith '/' (trimPieces before)⟩ := by
  have whole : (trimPieces p.pieces).reverse = last :: before.reverse := by
    simp [trimPieces, split, kept]
  rw [parent?, whole]
  dsimp only
  rw [List.reverse_reverse]

theorem suits_pieces : p.head.Suits (before ++ [last]).head? := by
  have whole : trimPieces p.pieces = before ++ [last] := by
    simp [trimPieces, split, kept]
  exact whole ▸ head_suits p

theorem suits_before : p.head.Suits before.head? := by
  refine (suits_pieces split kept).mono fun piece begins => ?_
  rw [List.head?_append, Option.mem_def.mp begins]
  rfl

theorem suits_trimmed : p.head.Suits (trimPieces before).head? :=
  (suits_before split kept).mono fun _ begins => mem_head?_of_trimPieces begins

theorem components_above :
    (⟨p.head.chars ++ Text.joinWith '/' (trimPieces before)⟩ : Path).components =
      p.head.components ++ (before.filter significant).map Component.ofPiece := by
  rw [components_written (suits_trimmed split kept) (free_of_mem_trimmed split), filter_trimPieces]

/-- The text above is empty if nothing comes before the last piece. -/
theorem above_eq_nil_iff : p.head.chars ++ Text.joinWith '/' (trimPieces before) = [] ↔
    p.head = .none ∧ before = [] := by
  refine ⟨fun empty => ?_, fun alone => by rw [alone.1, alone.2]; rfl⟩
  have nothing := components_above split kept
  rw [empty] at nothing
  obtain ⟨noHead, noSteps⟩ := List.append_eq_nil_iff.mp nothing.symm
  have headless : p.head = .none := by
    cases head : p.head with
    | none => rfl
    | root => rw [head] at noHead; cases noHead
    | current => rw [head] at noHead; cases noHead
  refine ⟨headless, ?_⟩
  cases before with
  | nil => rfl
  | cons first more =>
      -- without a head the first piece is a component
      have suits := suits_before split kept
      rw [headless] at suits
      rw [List.filter_cons_of_pos (suits first rfl)] at noSteps
      cases noSteps

/-- Only a path of a single piece has no slash in it. -/
theorem slash_notMem_iff : '/' ∉ p.chars ↔ p.head = .none ∧ before = [] := by
  have suits := suits_pieces split kept
  have free : '/' ∉ last := notMem_of_mem_pieces (split ▸ List.mem_append_right _ List.mem_cons_self)
  have slash (more : before ≠ []) : '/' ∈ p.chars := by
    rw [chars_eq, split, Text.joinWith_concat more]
    simp
  cases head : p.head with
  | root =>
      have rooted : '/' ∈ p.chars := by simp [chars_eq p, head, Head.chars]
      simp [rooted]
  | current =>
      -- what follows a leading dot is empty, so the last component is not the first piece
      have more : before ≠ [] := by
        rintro rfl
        rw [head] at suits
        exact (significant_iff.mp kept).1 (suits last rfl)
      simp [slash more]
  | none =>
      by_cases more : before = []
      · have alone : p.chars = last := by
          rw [chars_eq, head, split, more]
          rfl
        simp [alone, free, more]
      · simp [slash more, more]

/-- The path above has the same head, and all components but the last. It is empty for a path of a
single piece. -/
theorem exists_parent? : ∃ q, p.parent? = some q ∧ q.head = p.head ∧
    p.steps = q.steps ++ [Component.ofPiece last] ∧ (q.chars = [] ↔ '/' ∉ p.chars) := by
  have sameHead : head ⟨p.head.chars ++ Text.joinWith '/' (trimPieces before)⟩ = p.head := by
    rw [head, splitHead_written (suits_trimmed split kept) (free_of_mem_trimmed split)]
  have fewer := components_above split kept
  rw [components_eq, sameHead] at fewer
  refine ⟨_, parent?_eq split kept, sameHead, ?_, ?_⟩
  · rw [List.append_cancel_left fewer, steps, split, List.filter_append, List.map_append,
      List.filter_cons_of_pos kept]
    rfl
  · exact (above_eq_nil_iff split kept).trans (slash_notMem_iff split kept).symm

end

end Path

end ScopeLint
