import Mathlib.Data.List.Infix
import ScopeLint.Glob
import ScopeLint.Proofs.Joining
import ScopeLint.Proofs.Searching

/-!
# Words of whole pieces

Two ways to look for a row of pieces in a text that is split at a separator. As a word the pieces are
joined and a separator follows the last; the word occurs where the pieces stand in a row, but nothing
marks the start of the first one, so it may be the end of a longer piece. As a pattern the word is read
character by character, and a deep wildcard takes the rest of the text, and maybe what goes before.
-/

namespace ScopeLint

namespace Text

variable {sep : Char} {cs ds word piece last first : List Char} {pieces before more : List (List Char)}

theorem contains_iff : contains word cs ↔ word <:+: cs := by
  rw [contains, Option.isSome_iff_ne_none, ne_eq, cutAt?_eq_none_iff, not_not]

/-! ## Texts put together -/

theorem joinWith_cons (first : List Char) (inhabited : pieces ≠ []) :
    joinWith sep (first :: pieces) = first ++ sep :: joinWith sep pieces :=
  joinWith_append (List.cons_ne_nil first []) inhabited

/-- A piece can be cut in two: what is joined up to the cut, and what is joined from it. -/
theorem joinWith_cut (before : List (List Char)) (last piece : List Char) (pieces : List (List Char)) :
    joinWith sep (before ++ (last ++ piece) :: pieces) =
      joinWith sep (before ++ [last]) ++ joinWith sep (piece :: pieces) := by
  induction before with
  | nil =>
      cases pieces with
      | nil => rfl
      | cons next pieces => exact List.append_assoc last piece _
  | cons first before ih =>
      rw [List.cons_append, List.cons_append, joinWith_cons first (by simp), joinWith_cons first (by simp),
        ih, List.append_assoc, List.cons_append]

/-- Where two texts meet without a separator, the last piece of one and the first of the other are one. -/
theorem splitAt_append_of (left : splitAt sep cs = before ++ [last])
    (right : splitAt sep ds = piece :: pieces) :
    splitAt sep (cs ++ ds) = before ++ (last ++ piece) :: pieces := by
  have free : ∀ other ∈ before ++ (last ++ piece) :: pieces, sep ∉ other := by
    have freeLeft : ∀ other ∈ before ++ [last], sep ∉ other :=
      fun other member => notMem_of_mem_splitAt (left ▸ member)
    have freeRight : ∀ other ∈ piece :: pieces, sep ∉ other :=
      fun other member => notMem_of_mem_splitAt (right ▸ member)
    obtain ⟨freeBefore, freeLast⟩ := List.forall_mem_append.mp freeLeft
    obtain ⟨freePiece, freePieces⟩ := List.forall_mem_cons.mp freeRight
    refine List.forall_mem_append.mpr ⟨freeBefore, List.forall_mem_cons.mpr ⟨?_, freePieces⟩⟩
    rw [List.mem_append, not_or]
    exact ⟨freeLast last List.mem_cons_self, freePiece⟩
  rw [← joinWith_splitAt sep cs, ← joinWith_splitAt sep ds, left, right, ← joinWith_cut,
    splitAt_joinWith (by simp) free]

/-- A word of pieces occurs where they stand in a row with a piece after them, the first one perhaps only
as the end of a piece. -/
theorem joined_infix_iff (free : ∀ piece ∈ first :: more, sep ∉ piece) :
    joinWith sep (first :: more) ++ [sep] <:+: cs ↔
      ∃ before holder rest, splitAt sep cs = before ++ holder :: (more ++ rest) ∧ first <:+ holder ∧
        rest ≠ [] := by
  constructor
  · rintro ⟨start, tail, rfl⟩
    obtain ⟨before, last, split⟩ : ∃ before last, splitAt sep start = before ++ [last] :=
      (List.eq_nil_or_concat' _).resolve_left (splitAt_ne_nil sep start)
    have word := splitAt_joinWith (List.cons_ne_nil first more) free
    refine ⟨before, last ++ first, splitAt sep tail, ?_, List.suffix_append _ _, splitAt_ne_nil sep tail⟩
    rw [List.append_assoc, List.append_assoc, List.singleton_append, ← List.append_assoc,
      splitAt_append_cons, splitAt_append_of split word, List.append_assoc, List.cons_append]
  · rintro ⟨before, holder, rest, split, ⟨start, rfl⟩, filled⟩
    refine ⟨joinWith sep (before ++ [start]), joinWith sep rest, ?_⟩
    rw [← joinWith_splitAt sep cs, split, joinWith_cut, ← List.cons_append,
      joinWith_append (List.cons_ne_nil first more) filled]
    simp

/-! ## Deleting stars -/

/-- Text without the first letter of a word is left as it is. -/
theorem deleteFrom_append {c : Char} {ws : List Char} (free : c ∉ cs) (rest : List Char) :
    deleteFrom (c :: ws) 0 (cs ++ rest) = cs ++ deleteFrom (c :: ws) 0 rest := by
  induction cs with
  | nil => rfl
  | cons d cs ih =>
      have other : c ≠ d := List.ne_of_not_mem_cons free
      rw [List.cons_append, deleteFrom, stripPrefix?, if_neg other]
      exact congrArg (d :: ·) (ih (List.not_mem_of_not_mem_cons free))

end Text

namespace Glob

variable {cs text : List Char} {ts : List Token}

/-- Whether a text stands for itself in a pattern. -/
def IsLiteral (cs : List Char) : Prop :=
  ∀ c ∈ cs, c ≠ '*' ∧ c ≠ '?' ∧ c ≠ '['

instance (cs : List Char) : Decidable (IsLiteral cs) :=
  List.decidableBAll (fun c => c ≠ '*' ∧ c ≠ '?' ∧ c ≠ '[') cs

/-! ## Reading -/

theorem tokensFrom_char {c : Char} (star : c ≠ '*') (mark : c ≠ '?') (bracket : c ≠ '[')
    (position : Nat) (fresh : Bool) (cs : List Char) :
    tokensFrom 0 position fresh (c :: cs) =
      (tokensFrom 0 (position + 1) (c = '/') cs).map (.char c :: ·) := by
  rw [tokensFrom]
  · cases tokensFrom 0 (position + 1) (c = '/') cs <;> rfl
  all_goals simp_all

/-- A literal text with a slash after it is read as its characters, and a component begins behind it. -/
theorem tokensFrom_literal (literal : IsLiteral cs) (position : Nat) (fresh : Bool) (rest : List Char) :
    tokensFrom 0 position fresh (cs ++ '/' :: rest) =
      (tokensFrom 0 (position + cs.length + 1) true rest).map ((cs ++ ['/']).map .char ++ ·) := by
  induction cs generalizing position fresh with
  | nil => exact tokensFrom_char (by decide) (by decide) (by decide) position fresh rest
  | cons c cs ih =>
      obtain ⟨⟨star, mark, bracket⟩, later⟩ := List.forall_mem_cons.mp literal
      have length : position + 1 + cs.length + 1 = position + (c :: cs).length + 1 := by
        rw [List.length_cons]
        omega
      rw [List.cons_append, tokensFrom_char star mark bracket, ih later, length]
      cases tokensFrom 0 (position + (c :: cs).length + 1) true rest <;> rfl

theorem tokensFrom_deep (position : Nat) : tokensFrom 0 position true ['*', '*'] = .ok [.deep] :=
  rfl

theorem tokensFrom_deep_slash (position : Nat) (rest : List Char) :
    tokensFrom 0 position true ('*' :: '*' :: '/' :: rest) =
      (tokensFrom 0 (position + 3) true rest).map (.deep :: ·) := by
  cases read : tokensFrom 0 (position + 3) true rest <;> simp [tokensFrom, read] <;> rfl

/-! ## Matching -/

theorem matchTokens_literal : matchTokens (cs.map .char ++ ts) text ↔
    ∃ rest, text = cs ++ rest ∧ matchTokens ts rest := by
  induction cs generalizing text with
  | nil => simp
  | cons c cs ih =>
      cases text with
      | nil => simp [matchTokens]
      | cons d text => simp [matchTokens, ih, and_assoc]

theorem matchTokens_literal_deep : matchTokens (cs.map .char ++ [.deep]) text ↔ cs <+: text := by
  have rest (text : List Char) : matchTokens [.deep] text := by simp [matchTokens]
  rw [matchTokens_literal]
  constructor
  · rintro ⟨rest, rfl, _⟩
    exact List.prefix_append cs rest
  · rintro ⟨after, rfl⟩
    exact ⟨after, rfl, rest after⟩

theorem slash_suffix_of_mem {rest : List Char} (member : rest ∈ afterSlashes text) :
    '/' :: rest <:+ text := by
  unfold afterSlashes at member
  induction text with
  | nil => cases member
  | cons c text ih =>
      rw [Text.suffixesAfter] at member
      split at member
      · rename_i slash
        rcases List.mem_cons.mp member with rfl | later
        · obtain rfl : c = '/' := of_decide_eq_true slash
          exact List.suffix_refl _
        · exact (ih later).trans (List.suffix_cons c text)
      · exact (ih member).trans (List.suffix_cons c text)

/-- What matches behind a deep wildcard stands at the start of the text or behind a slash. -/
theorem infix_of_matchTokens_deep (found : matchTokens (.deep :: (cs.map .char ++ [.deep])) text) :
    '/' :: cs <:+: '/' :: text := by
  rw [matchTokens, Bool.or_eq_true, Bool.or_eq_true, matchTokens_literal_deep, List.any_eq_true,
    matchTokens_literal_deep] at found
  rcases found with (start | ⟨rest, member, later⟩) | empty
  · exact ((List.prefix_cons_inj '/').mpr start).isInfix
  · have behind := ((List.prefix_cons_inj '/').mpr (matchTokens_literal_deep.mp later)).isInfix
    exact behind.trans ((slash_suffix_of_mem member).trans (List.suffix_cons '/' text)).isInfix
  · rw [List.prefix_nil.mp empty]
    exact ((List.prefix_cons_inj '/').mpr List.nil_prefix).isInfix

/-! ## Patterns for directories -/

theorem parse_literal (literal : IsLiteral cs) : parse (cs ++ ['/', '*', '*']) =
    .ok { source := cs ++ ['/', '*', '*'], tokens := (cs ++ ['/']).map .char ++ [.deep] } := by
  rw [parse, tokensFrom_literal literal, tokensFrom_deep]
  rfl

theorem parse_deep (literal : IsLiteral cs) :
    parse ('*' :: '*' :: '/' :: (cs ++ ['/', '*', '*'])) =
      .ok { source := '*' :: '*' :: '/' :: (cs ++ ['/', '*', '*'])
            tokens := .deep :: ((cs ++ ['/']).map .char ++ [.deep]) } := by
  rw [parse, tokensFrom_deep_slash, tokensFrom_literal literal, tokensFrom_deep]
  rfl

end Glob

end ScopeLint
