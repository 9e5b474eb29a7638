import Mathlib.Data.List.DropRight
import Mathlib.Data.List.Infix
import ScopeLint.Path

/-!
# Components and spelling

A path is compared by its components and shown by its text. What remains of a path after a base is a new
text, cut from the old one at a slash; its components are those that remain. The text is read anew, so the
piece it begins with must not be taken for a head: an empty piece for the root, or a `.` for the current
directory.
-/

namespace ScopeLint

namespace Text

variable {sep : Char} {piece : List Char} {pieces : List (List Char)}

theorem splitAt_cons_of_ne {c : Char} (other : c ≠ sep) (cs : List Char) :
    ∃ piece pieces, splitAt sep cs = piece :: pieces ∧
      splitAt sep (c :: cs) = (c :: piece) :: pieces := by
  cases split : splitAt sep cs with
  | nil => exact absurd split (splitAt_ne_nil sep cs)
  | cons piece pieces =>
      refine ⟨piece, pieces, rfl, ?_⟩
      rw [splitAt, if_neg other, split]

theorem splitAt_sep (sep : Char) (cs : List Char) : splitAt sep (sep :: cs) = [] :: splitAt sep cs := by
  rw [splitAt, if_pos rfl]

theorem notMem_of_mem_splitAt {cs : List Char} (member : piece ∈ splitAt sep cs) : sep ∉ piece := by
  induction cs generalizing piece with
  | nil =>
      obtain rfl := List.mem_singleton.mp member
      exact List.not_mem_nil
  | cons c cs ih =>
      by_cases same : c = sep
      · rw [same, splitAt_sep] at member
        rcases List.mem_cons.mp member with rfl | later
        · exact List.not_mem_nil
        · exact ih later
      · obtain ⟨first, pieces, split, longer⟩ := splitAt_cons_of_ne same cs
        rw [longer] at member
        rcases List.mem_cons.mp member with rfl | later
        · have free := ih (split ▸ List.mem_cons_self)
          exact List.not_mem_cons_of_ne_of_not_mem (Ne.symm same) free
        · exact ih (split ▸ List.mem_cons_of_mem _ later)

theorem splitAt_of_notMem (free : sep ∉ piece) : splitAt sep piece = [piece] := by
  induction piece with
  | nil => rfl
  | cons c cs ih =>
      have other : c ≠ sep := Ne.symm (List.ne_of_not_mem_cons free)
      rw [splitAt, if_neg other, ih (List.not_mem_of_not_mem_cons free)]

theorem splitAt_append (free : sep ∉ piece) (cs : List Char) :
    splitAt sep (piece ++ sep :: cs) = piece :: splitAt sep cs := by
  induction piece with
  | nil => exact splitAt_sep sep cs
  | cons c piece ih =>
      have other : c ≠ sep := Ne.symm (List.ne_of_not_mem_cons free)
      rw [List.cons_append, splitAt, if_neg other, ih (List.not_mem_of_not_mem_cons free)]

/-- Splitting what was joined gives the pieces back. -/
theorem splitAt_joinWith (inhabited : pieces ≠ []) (free : ∀ piece ∈ pieces, sep ∉ piece) :
    splitAt sep (joinWith sep pieces) = pieces := by
  induction pieces with
  | nil => exact absurd rfl inhabited
  | cons piece pieces ih =>
      obtain ⟨here, later⟩ := List.forall_mem_cons.mp free
      cases pieces with
      | nil => exact splitAt_of_notMem here
      | cons next pieces =>
          rw [joinWith, splitAt_append here, ih (List.cons_ne_nil _ _) later]

/-- The first piece is what stands before the first separator. -/
theorem head?_splitAt (sep : Char) (cs : List Char) :
    (splitAt sep cs).head? = some (cs.takeWhile (· ≠ sep)) := by
  induction cs with
  | nil => rfl
  | cons c cs ih =>
      by_cases same : c = sep
      · rw [same, splitAt_sep]
        simp
      · obtain ⟨piece, pieces, split, longer⟩ := splitAt_cons_of_ne same cs
        rw [split, List.head?_cons, Option.some.injEq] at ih
        rw [longer, List.head?_cons, ih, List.takeWhile_cons_of_pos (by simpa using same)]

end Text

namespace Component

theorem key_injective : Function.Injective key := by
  have codes : Function.Injective (List.map Char.toNat) :=
    List.map_injective_iff.mpr fun _ _ => Char.toNat_inj.mp
  intro a b same
  cases a <;> cases b <;> simp_all [key, codes.eq_iff]

end Component

namespace Path

variable {p q base : Path} {pieces : List (List Char)}

/-- Comparing by keys is comparing by components. -/
theorem key_eq_iff : p.key = q.key ↔ p.components = q.components :=
  (List.map_injective_iff.mpr Component.key_injective).eq_iff

/-! ## Cutting pieces off -/

theorem trimPieces_isPrefix (pieces : List (List Char)) : trimPieces pieces <+: pieces :=
  List.rdropWhile_prefix _ pieces

/-- Pieces that end in a component are left as they are. -/
theorem trimPieces_eq_self (ends : ∀ last ∈ pieces.getLast?, significant last) :
    trimPieces pieces = pieces := by
  rcases List.eq_nil_or_concat' pieces with rfl | ⟨before, last, rfl⟩
  · rfl
  · have kept := ends last List.getLast?_concat
    simp [trimPieces, kept]

theorem mem_head?_of_trimPieces {piece : List Char} (begins : piece ∈ (trimPieces pieces).head?) :
    piece ∈ pieces.head? := by
  obtain ⟨rest, whole⟩ := trimPieces_isPrefix pieces
  rw [← whole, List.head?_append, Option.mem_def.mp begins]
  rfl

theorem filter_trimPieces (pieces : List (List Char)) :
    (trimPieces pieces).filter significant = pieces.filter significant := by
  induction pieces using List.reverseRecOn with
  | nil => rfl
  | append_singleton pieces piece ih =>
      have unfold : trimPieces (pieces ++ [piece]) =
          if significant piece then pieces ++ [piece] else trimPieces pieces := by
        cases kept : significant piece <;> simp [trimPieces, kept]
      rw [unfold]
      split
      · rfl
      · rename_i dropped
        simp [ih, dropped]

theorem filter_dropPieces (n : Nat) (pieces : List (List Char)) :
    (dropPieces n pieces).filter significant = (pieces.filter significant).drop n := by
  fun_induction dropPieces n pieces with
  | case1 => simp
  | case2 piece pieces kept => simp [kept]
  | case3 piece pieces kept n ih => simp [kept, ih]
  | case4 n piece pieces dropped ih => simp [dropped, ih]

theorem dropPieces_suffix (n : Nat) (pieces : List (List Char)) : dropPieces n pieces <:+ pieces := by
  fun_induction dropPieces n pieces with
  | case1 => exact List.suffix_refl _
  | case2 piece pieces => exact List.suffix_refl _
  | case3 piece pieces kept n ih => exact ih.trans (List.suffix_cons _ _)
  | case4 n piece pieces dropped ih => exact ih.trans (List.suffix_cons _ _)

/-- What is left begins with a component. -/
theorem significant_head_dropPieces {n : Nat} {first : List Char}
    (begins : first ∈ (dropPieces n pieces).head?) : significant first := by
  fun_induction dropPieces n pieces with
  | case1 => cases begins
  | case2 piece pieces kept =>
      cases begins
      exact kept
  | case3 piece pieces kept n ih => exact ih begins
  | case4 n piece pieces dropped ih => exact ih begins

/-! ## Reading a text again -/

/-- Whether pieces, the first of which is given, are read as pieces when they are written after a head. -/
def Head.Suits : Head → Option (List Char) → Prop
  | root, _ => True
  | current, first => ∀ piece ∈ first, piece = []
  | none, first => ∀ piece ∈ first, significant piece

theorem significant_iff {piece : List Char} : significant piece ↔ piece ≠ [] ∧ piece ≠ ['.'] := by
  simp [significant]

/-- A text that begins with a component has no head. -/
theorem splitHead_none {piece : List Char} (kept : significant piece) (free : '/' ∉ piece)
    (rest : List Char) : splitHead (piece ++ rest) = (.none, piece ++ rest) := by
  obtain ⟨filled, other⟩ := significant_iff.mp kept
  obtain ⟨c, cs, rfl⟩ := List.exists_cons_of_ne_nil filled
  have first : c ≠ '/' := Ne.symm (List.ne_of_not_mem_cons free)
  have later : '/' ∉ cs := List.not_mem_of_not_mem_cons free
  unfold splitHead
  split
  · rename_i body same
    exact absurd (List.cons.inj same).1 first
  · rename_i same
    obtain ⟨rfl, empty⟩ := List.cons.inj same
    obtain ⟨rfl, _⟩ := List.append_eq_nil_iff.mp empty
    exact absurd rfl other
  · rename_i body same
    obtain ⟨rfl, slash⟩ := List.cons.inj same
    cases cs with
    | nil => exact absurd rfl other
    | cons d ds => exact absurd (List.cons.inj slash).1 (Ne.symm (List.ne_of_not_mem_cons later))
  · rfl

theorem splitHead_written {head : Head} (suits : head.Suits pieces.head?)
    (free : ∀ piece ∈ pieces, '/' ∉ piece) :
    splitHead (head.chars ++ Text.joinWith '/' pieces) = (head, Text.joinWith '/' pieces) := by
  cases head with
  | root => rfl
  | current =>
      match pieces with
      | [] => rfl
      | [piece] =>
          obtain rfl : piece = [] := suits piece rfl
          rfl
      | piece :: next :: pieces =>
          obtain rfl : piece = [] := suits piece rfl
          rfl
  | none =>
      match pieces with
      | [] => rfl
      | [piece] =>
          have read := splitHead_none (suits piece rfl) (free piece List.mem_cons_self) []
          rwa [List.append_nil] at read
      | piece :: next :: pieces =>
          have read := splitHead_none (suits piece rfl) (free piece List.mem_cons_self)
          exact read ('/' :: Text.joinWith '/' (next :: pieces))

/-- The components of a path that is written as a head and pieces. -/
theorem components_written {head : Head} (suits : head.Suits pieces.head?)
    (free : ∀ piece ∈ pieces, '/' ∉ piece) :
    (⟨head.chars ++ Text.joinWith '/' pieces⟩ : Path).components =
      head.components ++ (pieces.filter significant).map Component.ofPiece := by
  rw [components, Path.head, Path.pieces, splitHead_written suits free]
  by_cases empty : pieces = []
  · rw [empty]
    rfl
  · rw [Text.splitAt_joinWith empty free]

theorem notMem_of_mem_pieces {piece : List Char} (member : piece ∈ p.pieces) : '/' ∉ piece :=
  Text.notMem_of_mem_splitAt member

/-- A text without a head begins with a component, unless it is empty. -/
theorem significant_first {chars : List Char} (filled : chars ≠ [])
    (bare : (splitHead chars).1 = .none) : significant (chars.takeWhile (· ≠ '/')) := by
  obtain ⟨c, cs, rfl⟩ := List.exists_cons_of_ne_nil filled
  have first : c ≠ '/' := by
    rintro rfl
    cases bare
  rw [List.takeWhile_cons_of_pos (by simpa using first)]
  refine significant_iff.mpr ⟨List.cons_ne_nil _ _, fun dot => ?_⟩
  obtain ⟨rfl, alone⟩ := List.cons.inj dot
  cases cs with
  | nil => cases bare
  | cons d ds =>
      by_cases slash : d = '/'
      · rw [slash] at bare
        cases bare
      · rw [List.takeWhile_cons_of_pos (by simpa using slash)] at alone
        cases alone

/-- A leading `.` is followed by a slash or by nothing. -/
theorem first_of_current {chars body : List Char} (split : splitHead chars = (.current, body)) :
    body.takeWhile (· ≠ '/') = [] := by
  unfold splitHead at split
  split at split <;> cases split <;> rfl

/-- The pieces of a path, up to the last component, are read as pieces after its head. -/
theorem head_suits (p : Path) : p.head.Suits (trimPieces p.pieces).head? := by
  have first : ∀ piece ∈ (trimPieces p.pieces).head?,
      piece = (splitHead p.chars).2.takeWhile (· ≠ '/') := by
    intro piece begins
    have whole : p.pieces.head? = some piece := mem_head?_of_trimPieces begins
    rw [Path.pieces, Text.head?_splitAt] at whole
    exact (Option.some.inj whole).symm
  rw [Path.head]
  cases split : splitHead p.chars with
  | mk head body =>
      have chars := splitHead_chars p.chars
      rw [split] at first chars
      cases head with
      | root => trivial
      | current =>
          intro piece begins
          rw [first piece begins]
          exact first_of_current split
      | none =>
          intro piece begins
          obtain rfl : body = p.chars := chars
          rw [first piece begins]
          refine significant_first ?_ (by rw [split])
          intro empty
          rw [Path.pieces, split, empty] at begins
          cases begins

/-- The pieces that are left after some components are read as pieces without a head. -/
theorem none_suits_dropPieces (p : Path) (n : Nat) :
    Head.none.Suits (trimPieces (dropPieces n p.pieces)).head? :=
  fun _ begins => significant_head_dropPieces (mem_head?_of_trimPieces begins)

theorem notMem_of_mem_dropPieces {piece : List Char} {n : Nat}
    (member : piece ∈ trimPieces (dropPieces n p.pieces)) : '/' ∉ piece := by
  have kept := (trimPieces_isPrefix _).subset member
  exact notMem_of_mem_pieces ((dropPieces_suffix _ _).subset kept)

/-- What is left after the head of a path has none. -/
theorem head_dropComponents_succ (p : Path) (n : Nat) : (p.dropComponents (n + 1)).head = .none := by
  have read := splitHead_written (none_suits_dropPieces p (n + 1 - p.head.components.length))
    fun _ member => notMem_of_mem_dropPieces member
  exact congrArg Prod.fst read

theorem components_dropComponents (p : Path) (n : Nat) :
    (p.dropComponents n).components = p.components.drop n := by
  cases n with
  | zero =>
      have free : ∀ piece ∈ trimPieces p.pieces, '/' ∉ piece :=
        fun piece member => notMem_of_mem_pieces ((trimPieces_isPrefix _).subset member)
      rw [dropComponents, components_written (head_suits p) free, filter_trimPieces, List.drop_zero,
        components]
  | succ n =>
      have written := components_written (none_suits_dropPieces p (n + 1 - p.head.components.length))
        fun _ member => notMem_of_mem_dropPieces member
      have headGone : p.head.components.drop (n + 1) = [] := by
        cases p.head <;> simp [Head.components]
      rw [dropComponents]
      refine written.trans ?_
      rw [filter_trimPieces, filter_dropPieces, List.map_drop, components, List.drop_append, headGone]
      rfl

/-! ## Paths below a base -/

theorem startsWith_iff : p.startsWith base ↔ base.components <+: p.components :=
  List.isPrefixOf_iff_prefix

/-- The components of a path below a base are those of the base, and then those that are shown. -/
theorem components_relativeTo (below : p.startsWith base) :
    p.components = base.components ++ (p.relativeTo base).components := by
  rw [relativeTo, stripBase?, if_pos below, Option.getD_some, components_dropComponents]
  exact List.prefix_iff_eq_append.mp (startsWith_iff.mp below) |>.symm

/-- Paths below a base are told apart by what is shown of them. -/
theorem relativeTo_inj (below : p.startsWith base) (below' : q.startsWith base)
    (same : (p.relativeTo base).components = (q.relativeTo base).components) :
    p.components = q.components := by
  rw [components_relativeTo below, components_relativeTo below', same]

end Path

end ScopeLint
