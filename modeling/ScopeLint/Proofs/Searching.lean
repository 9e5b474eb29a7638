import Mathlib.Data.List.Chain
import Mathlib.Data.List.DropRight
import Mathlib.Data.List.Infix
import ScopeLint.Text.Blank
import ScopeLint.Text.Search

/-!
# Finding words and trimming blanks

What the searches of a text find is said here by infixes: a word is cut at where it first stands, and the
first text that follows it is the same. A word of two letters stands in a text that is put together from
two only if it stands in one of them, or across the seam. A letter at the end that is not in the word makes no
difference to where the word stands.

Trimming takes off blanks at both ends, so it leaves a text alone that has none there.
-/

namespace ScopeLint.Text

variable {word before rest cs ds : List Char} {c d x : Char}

/-! ## Words -/

theorem stripPrefix?_eq_none_iff : stripPrefix? word cs = none ↔ ¬ word <+: cs := by
  rw [Option.eq_none_iff_forall_ne_some]
  constructor
  · rintro none ⟨rest, rfl⟩
    exact none rest (stripPrefix?_append word rest)
  · intro other rest found
    exact other ⟨rest, (stripPrefix?_eq_some_iff.mp found).symm⟩

theorem cutAt?_eq_none_iff : cutAt? word cs = none ↔ ¬ word <:+: cs := by
  induction cs with
  | nil => rw [cutAt?, Option.map_eq_none_iff, stripPrefix?_eq_none_iff, List.infix_nil, List.prefix_nil]
  | cons c cs ih =>
      rw [List.infix_cons_iff, not_or, ← ih, ← stripPrefix?_eq_none_iff, cutAt?]
      cases stripPrefix? word (c :: cs) <;> simp

/-- A text is cut at the first place where the word stands. -/
theorem cutAt?_append (filled : word ≠ []) (first : ¬ word <:+: before ++ word.dropLast)
    (rest : List Char) : cutAt? word (before ++ (word ++ rest)) = some (before, rest) := by
  induction before with
  | nil =>
      obtain ⟨w, ws, rfl⟩ := List.exists_cons_of_ne_nil filled
      have found := stripPrefix?_append (w :: ws) rest
      rw [List.cons_append] at found
      simp only [List.nil_append, List.cons_append, cutAt?, found]
  | cons c before ih =>
      rw [List.cons_append, List.infix_cons_iff, not_or] at first
      have missed : stripPrefix? word (c :: (before ++ (word ++ rest))) = none := by
        refine stripPrefix?_eq_none_iff.mpr fun here => first.1 ?_
        -- what would stand here ends before the word does that follows
        have shorter : c :: (before ++ word.dropLast) <+: c :: (before ++ (word ++ rest)) := by
          rw [List.prefix_cons_inj, List.prefix_append_right_inj]
          exact (List.dropLast_prefix word).trans (List.prefix_append word rest)
        refine List.prefix_of_prefix_length_le here shorter ?_
        rw [List.length_cons, List.length_append, List.length_dropLast]
        omega
      simp only [List.cons_append, cutAt?, missed, ih first.2, Option.map_some]

theorem cutAt?_singleton (free : c ∉ before) (rest : List Char) :
    cutAt? [c] (before ++ c :: rest) = some (before, rest) := by
  refine cutAt?_append (List.cons_ne_nil _ _) (fun found => free ?_) rest
  rw [List.dropLast_singleton, List.append_nil] at found
  exact found.subset List.mem_cons_self

/-- The first text that follows a word is what the cut leaves behind it. -/
theorem exists_followers (filled : word ≠ []) (found : cutAt? word cs = some (before, rest)) :
    ∃ more, followers word cs = rest :: more := by
  unfold followers
  induction cs generalizing before with
  | nil =>
      obtain ⟨w, ws, rfl⟩ := List.exists_cons_of_ne_nil filled
      cases found
  | cons c cs ih =>
      cases here : stripPrefix? word (c :: cs) with
      | some after =>
          simp only [cutAt?, here, Option.some.injEq, Prod.mk.injEq] at found
          simp only [followersFrom, here, found.2]
          exact ⟨_, rfl⟩
      | none =>
          simp only [cutAt?, here, Option.map_eq_some_iff] at found
          obtain ⟨cut, later, same⟩ := found
          cases same
          simp only [followersFrom, here]
          exact ih later

theorem followers_eq_nil (missing : ¬ word <:+: cs) : followers word cs = [] := by
  unfold followers
  induction cs with
  | nil => rfl
  | cons c cs ih =>
      rw [List.infix_cons_iff, not_or] at missing
      rw [followersFrom, stripPrefix?_eq_none_iff.mpr missing.1]
      exact ih missing.2

/-! ## Words of two letters -/

theorem pair_infix_append_iff : [c, d] <:+: cs ++ ds ↔
    [c, d] <:+: cs ∨ [c, d] <:+: ds ∨ cs.getLast? = some c ∧ ds.head? = some d := by
  have chain : ∀ l : List Char, ¬ [c, d] <:+: l ↔ l.IsChain fun x y => ¬ (x = c ∧ y = d) := by
    intro l
    rw [List.isChain_iff_forall_rel_of_append_cons_cons]
    constructor
    · rintro missing x y before after rfl ⟨rfl, rfl⟩
      exact missing ⟨before, after, by simp⟩
    · rintro apart ⟨before, after, rfl⟩
      exact apart (List.append_assoc before [c, d] after) ⟨rfl, rfl⟩
  rw [← not_iff_not, chain, List.isChain_append, not_or, not_or, ← chain, ← chain]
  refine and_congr_right' (and_congr_right' ?_)
  constructor
  · rintro apart ⟨last, first⟩
    exact apart c last d first ⟨rfl, rfl⟩
  · rintro apart x last y first ⟨rfl, rfl⟩
    exact apart ⟨last, first⟩

theorem pair_not_infix_singleton : ¬ [c, d] <:+: [x] :=
  fun found => absurd found.length_le (by simp)

theorem pair_infix_cons_iff (other : x ≠ c) : [c, d] <:+: x :: cs ↔ [c, d] <:+: cs := by
  have seam : [x].getLast? ≠ some c := fun last => other (Option.some.inj last)
  rw [← List.singleton_append (l := cs), pair_infix_append_iff]
  simp only [pair_not_infix_singleton, seam, false_or, false_and, or_false]

/-- A letter that is not in the word keeps two texts apart. -/
theorem pair_infix_separated (left : x ≠ c) (right : x ≠ d) :
    [c, d] <:+: cs ++ x :: ds ↔ [c, d] <:+: cs ∨ [c, d] <:+: ds := by
  have seam : (x :: ds).head? ≠ some d := fun first => right (Option.some.inj first)
  rw [pair_infix_append_iff, pair_infix_cons_iff left]
  simp only [seam, and_false, or_false]

theorem pair_not_infix_concat (free : c ∉ cs) : ¬ [c, d] <:+: cs ++ [x] := by
  rw [pair_infix_append_iff]
  rintro (early | alone | seam)
  · exact free (early.subset List.mem_cons_self)
  · exact pair_not_infix_singleton alone
  · exact free (List.mem_of_getLast? seam.1)

theorem pair_not_infix_cons (free : d ∉ cs) : ¬ [c, d] <:+: x :: cs := by
  rw [← List.singleton_append (l := cs), pair_infix_append_iff]
  rintro (alone | later | seam)
  · exact pair_not_infix_singleton alone
  · exact free (later.subset (List.mem_cons_of_mem _ List.mem_cons_self))
  · exact free (List.mem_of_head? seam.2)

/-! ## A letter at the end of a text -/

section Concat

variable (fresh : c ∉ word)

include fresh

theorem stripPrefix?_concat (cs : List Char) :
    stripPrefix? word (cs ++ [c]) = (stripPrefix? word cs).map (· ++ [c]) := by
  induction word generalizing cs with
  | nil => rfl
  | cons w word ih =>
      have other : w ≠ c := Ne.symm (List.ne_of_not_mem_cons fresh)
      cases cs with
      | nil => simp [stripPrefix?, other]
      | cons d cs =>
          rw [List.cons_append, stripPrefix?, stripPrefix?, ih (List.not_mem_of_not_mem_cons fresh)]
          split <;> rfl

theorem cutAt?_concat (filled : word ≠ []) (cs : List Char) :
    cutAt? word (cs ++ [c]) = (cutAt? word cs).map fun cut => (cut.1, cut.2 ++ [c]) := by
  have strip := stripPrefix?_concat fresh
  obtain ⟨w, ws, rfl⟩ := List.exists_cons_of_ne_nil filled
  induction cs with
  | nil => simp [cutAt?, stripPrefix?, Ne.symm (List.ne_of_not_mem_cons fresh)]
  | cons d cs ih =>
      have here := strip (d :: cs)
      rw [List.cons_append] at here ⊢
      rw [cutAt?, cutAt?, here, ih]
      cases stripPrefix? (w :: ws) (d :: cs) <;> cases cutAt? (w :: ws) cs <;> rfl

theorem followersFrom_concat (filled : word ≠ []) (skip : Nat) (cs : List Char) :
    followersFrom word skip (cs ++ [c]) = (followersFrom word skip cs).map (· ++ [c]) := by
  have strip := stripPrefix?_concat fresh
  induction cs generalizing skip with
  | nil =>
      obtain ⟨w, ws, rfl⟩ := List.exists_cons_of_ne_nil filled
      cases skip with
      | zero => simp [followersFrom, stripPrefix?, Ne.symm (List.ne_of_not_mem_cons fresh)]
      | succ skip => simp [followersFrom]
  | cons d cs ih =>
      rw [List.cons_append]
      cases skip with
      | zero =>
          have here := strip (d :: cs)
          rw [List.cons_append] at here
          rw [followersFrom, followersFrom, here]
          cases stripPrefix? word (d :: cs) with
          | none => exact ih 0
          | some after => simp [ih]
      | succ skip => exact ih skip

end Concat

/-! ## Blanks -/

theorem trim_cons_of_isBlank (blank : isBlank c) (cs : List Char) : trim (c :: cs) = trim cs := by
  rw [trim, trimStart, List.dropWhile_cons_of_pos blank]
  rfl

theorem trim_concat_of_isBlank (blank : isBlank c) (cs : List Char) : trim (cs ++ [c]) = trim cs := by
  rw [trim, trim, trimStart, trimStart, List.dropWhile_append, List.dropWhile_cons_of_pos blank]
  split
  · rename_i empty
    rw [List.isEmpty_iff.mp empty]
    rfl
  · exact List.rdropWhile_concat_pos _ _ _ blank

/-- A text without blanks at its ends is left as it is. -/
theorem trim_eq_self (first : ∀ c ∈ cs.head?, isBlank c = false)
    (last : ∀ c ∈ cs.getLast?, isBlank c = false) : trim cs = cs := by
  have start : trimStart cs = cs := by
    cases cs with
    | nil => rfl
    | cons c cs => exact List.dropWhile_cons_of_neg (by simp [first c rfl])
  rw [trim, start]
  refine List.rdropWhile_eq_self_iff.mpr fun filled => ?_
  simp [last _ (List.getLast?_eq_some_getLast filled)]

/-- A text that trimming leaves alone does not begin with a blank. -/
theorem isBlank_head_of_trim (same : trim cs = cs) : ∀ c ∈ cs.head?, isBlank c = false := by
  rintro c first
  obtain ⟨rest, rfl⟩ : ∃ rest, cs = c :: rest := List.head?_eq_some_iff.mp first
  by_contra blank
  have shorter : (trim (c :: rest)).length ≤ rest.length := by
    rw [trim_cons_of_isBlank (by simpa using blank)]
    exact ((List.rdropWhile_prefix _ _).length_le).trans (List.dropWhile_suffix _).length_le
  rw [same, List.length_cons] at shorter
  omega

end ScopeLint.Text
