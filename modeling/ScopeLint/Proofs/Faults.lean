import Mathlib.Data.List.Lex
import ScopeLint.Proofs.Deletion
import ScopeLint.Proofs.Faithful

/-!
# The first fault of a tree

The search for a fault keeps a list of pending trees and enters only those that have a fault. It is
compared here with the plain search through all labels in pre-order: the labels that are skipped belong
to trees without a fault, so both find the same one. On addresses this is the fault that a pre-order walk
meets before all others, and a tree that has a fault never ends the search without one.
-/

namespace ScopeLint

namespace Concrete

variable {t n m child : Concrete} {ts : List Concrete} {a b : Address} {label : Label} {number : Nat}

/-! ## Labels and faults -/

theorem mem_labels_iff : label ∈ t.labels ↔ ∃ a n, t.at? a = some n ∧ n.label = label := by
  constructor
  · intro member
    induction t with
    | node top children ih =>
        rw [labels] at member
        rcases List.mem_cons.mp member with rfl | below
        · exact ⟨[], _, rfl, rfl⟩
        · obtain ⟨child, inside, found⟩ := mem_labelsOfAll.mp below
          obtain ⟨number, place⟩ := List.mem_iff_getElem?.mp inside
          obtain ⟨a, n, reached, same⟩ := ih child inside found
          exact ⟨number :: a, n, (at?_cons place a).trans reached, same⟩
  · rintro ⟨a, n, reached, rfl⟩
    rw [labels_eq]
    induction a generalizing t with
    | nil =>
        cases reached
        exact List.mem_cons_self
    | cons number rest ih =>
        obtain ⟨child, place, reached⟩ := Option.bind_eq_some_iff.mp reached
        refine List.mem_cons_of_mem _ (mem_labelsOfAll.mpr ⟨child, List.mem_of_getElem? place, ?_⟩)
        rw [labels_eq]
        exact ih reached

/-- A tree has a fault if one of its labels is marked as one. -/
theorem hasFault_iff : t.hasFault ↔ ∃ label ∈ t.labels, label.mark.isFault := by
  rw [← not_iff_not, Bool.not_eq_true]
  induction t with
  | node top children ih =>
      rw [hasFault, Bool.or_eq_false_iff, anyHasFault_eq_false_iff, labels]
      simp only [List.mem_cons, mem_labelsOfAll]
      constructor
      · rintro ⟨sound, below⟩ ⟨label, rfl | ⟨child, inside, found⟩, fault⟩
        · rw [sound] at fault
          cases fault
        · exact (ih child inside).mp (below child inside) ⟨label, found, fault⟩
      · intro sound
        refine ⟨?_, fun child inside => (ih child inside).mpr ?_⟩
        · exact Bool.eq_false_iff.mpr fun fault => sound ⟨top, .inl rfl, fault⟩
        · rintro ⟨label, found, fault⟩
          exact sound ⟨label, .inr ⟨child, inside, found⟩, fault⟩

theorem hasFault_iff_at? : t.hasFault ↔ ∃ a n, t.at? a = some n ∧ n.label.mark.isFault := by
  rw [hasFault_iff]
  constructor
  · rintro ⟨label, member, fault⟩
    obtain ⟨a, n, reached, rfl⟩ := mem_labels_iff.mp member
    exact ⟨a, n, reached, fault⟩
  · rintro ⟨a, n, reached, fault⟩
    exact ⟨n.label, mem_labels_iff.mpr ⟨a, n, reached, rfl⟩, fault⟩

theorem find?_labels_eq_none (sound : t.hasFault = false) :
    t.labels.find? (·.mark.isFault) = none := by
  refine List.find?_eq_none.mpr fun label member fault => ?_
  rw [hasFault_iff.mpr ⟨label, member, fault⟩] at sound
  cases sound

/-! ## Searching with and without pruning -/

/-- Pending trees that are not entered have no fault to offer. -/
theorem firstFaultAmong?_eq_find? (pending : List Concrete) :
    firstFaultAmong? pending = (labelsOfAll pending).find? (·.mark.isFault) := by
  fun_induction firstFaultAmong? pending with
  | case1 => rfl
  | case2 t pending fault =>
      simp only [labelsOfAll, labels_eq, List.cons_append, List.find?_cons, fault]
  | case3 t pending sound _ ih =>
      simp only [ih, labelsOfAll, labels_eq, List.cons_append, List.find?_cons, sound, labelsOfAll_append]
  | case4 t pending _ clean ih =>
      -- the tree is skipped with all its labels, none of which is a fault
      rw [ih, labelsOfAll, List.find?_append, find?_labels_eq_none (Bool.eq_false_iff.mpr clean)]
      rfl

theorem firstFault?_eq_find? (t : Concrete) : t.firstFault? = t.labels.find? (·.mark.isFault) := by
  rw [firstFault?, firstFaultAmong?_eq_find?, labelsOfAll, labelsOfAll, List.append_nil]

theorem isSome_firstFault? : t.firstFault?.isSome ↔ t.hasFault := by
  rw [firstFault?_eq_find?, List.find?_isSome, hasFault_iff]

/-! ## The first address with a fault -/

/-- Whether the node at an address is a fault, and a pre-order walk meets all other faults after it. -/
structure FirstFault (t : Concrete) (a : Address) (n : Concrete) : Prop where
  found : t.at? a = some n
  fault : n.label.mark.isFault
  first : ∀ b m, t.at? b = some m → m.label.mark.isFault → a = b ∨ a.Before b

theorem FirstFault.unique (h : t.FirstFault a n) (h' : t.FirstFault b m) : a = b ∧ n = m := by
  have same : a = b := by
    rcases h.first b m h'.found h'.fault with same | before
    · exact same
    rcases h'.first a n h.found h.fault with same | after
    · exact same.symm
    exact absurd after (Std.Asymm.asymm (r := List.Lex (· < ·)) a b before)
  subst same
  exact ⟨rfl, Option.some.inj (h.found.symm.trans h'.found)⟩

theorem FirstFault.here (fault : t.label.mark.isFault) : t.FirstFault [] t where
  found := rfl
  fault := fault
  first := by
    rintro (_ | ⟨number, rest⟩) m _ _
    · exact .inl rfl
    · exact .inr .nil

/-- The first fault of a child is the first one of the tree, if there is none in the node itself or in an
earlier child. -/
theorem FirstFault.below (h : child.FirstFault a n) (place : t.children[number]? = some child)
    (sound : t.label.mark.isFault = false)
    (earlier : ∀ i c, i < number → t.children[i]? = some c → c.hasFault = false) :
    t.FirstFault (number :: a) n where
  found := (at?_cons place a).trans h.found
  fault := h.fault
  first := by
    rintro (_ | ⟨i, b⟩) m reached fault
    · cases reached
      rw [sound] at fault
      cases fault
    · obtain ⟨c, place', reached⟩ := Option.bind_eq_some_iff.mp reached
      rcases Nat.lt_trichotomy number i with later | rfl | sooner
      · exact .inr (.rel later)
      · cases place.symm.trans place'
        rcases h.first b m reached fault with rfl | before
        · exact .inl rfl
        · exact .inr (.cons before)
      · have clean := earlier i c sooner place'
        rw [hasFault_iff_at?.mpr ⟨b, m, reached, fault⟩] at clean
        cases clean

/-- Among trees in a row the first fault is that of the first tree that has one. -/
theorem exists_child_of_find? (found : (labelsOfAll ts).find? (·.mark.isFault) = some label) :
    ∃ (number : Nat) (child : Concrete), ts[number]? = some child ∧
      child.labels.find? (·.mark.isFault) = some label ∧
      ∀ (i : Nat) (c : Concrete), i < number → ts[i]? = some c → c.hasFault = false := by
  induction ts with
  | nil => cases found
  | cons t ts ih =>
      rw [labelsOfAll, List.find?_append] at found
      cases fault : t.hasFault with
      | true =>
          obtain ⟨first, here⟩ := Option.isSome_iff_exists.mp (isSome_firstFault?.mpr fault)
          rw [firstFault?_eq_find?] at here
          rw [here, Option.some_or] at found
          exact ⟨0, t, rfl, here.trans found, fun i c sooner => absurd sooner (Nat.not_lt_zero i)⟩
      | false =>
          rw [find?_labels_eq_none fault, Option.none_or] at found
          obtain ⟨number, child, place, here, earlier⟩ := ih found
          refine ⟨number + 1, child, place, here, ?_⟩
          rintro (_ | i) c sooner place'
          · cases place'
            exact fault
          · exact earlier i c (Nat.lt_of_succ_lt_succ sooner) place'

theorem exists_firstFault (found : t.labels.find? (·.mark.isFault) = some label) :
    ∃ a n, t.FirstFault a n ∧ n.label = label := by
  induction t with
  | node top children ih =>
      rw [labels] at found
      cases fault : top.mark.isFault with
      | true =>
          simp only [List.find?_cons, fault] at found
          exact ⟨[], _, .here fault, Option.some.inj found⟩
      | false =>
          simp only [List.find?_cons, fault] at found
          obtain ⟨number, child, place, here, earlier⟩ := exists_child_of_find? found
          obtain ⟨a, n, first, same⟩ := ih child (List.mem_of_getElem? place) here
          exact ⟨number :: a, n, first.below place fault earlier, same⟩

/-- The search finds the first fault in pre-order. -/
theorem firstFault?_eq_some_iff :
    t.firstFault? = some label ↔ ∃ a n, t.FirstFault a n ∧ n.label = label := by
  constructor
  · intro found
    rw [firstFault?_eq_find?] at found
    exact exists_firstFault found
  · rintro ⟨a, n, first, rfl⟩
    have fault : t.hasFault := hasFault_iff_at?.mpr ⟨a, n, first.found, first.fault⟩
    obtain ⟨label, found⟩ := Option.isSome_iff_exists.mp (isSome_firstFault?.mpr fault)
    rw [found]
    rw [firstFault?_eq_find?] at found
    obtain ⟨b, m, first', rfl⟩ := exists_firstFault found
    rw [(first.unique first').2]

end Concrete

namespace Outline

variable {source : List Char} {t n : Concrete} {a : Address}

theorem parse_of_firstFault (first : t.FirstFault a n) :
    parse source t = .error ⟨Text.positionAt source n.label.start⟩ := by
  have fault : t.hasFault := Concrete.hasFault_iff_at?.mpr ⟨a, n, first.found, first.fault⟩
  have found : t.firstFault? = some n.label := Concrete.firstFault?_eq_some_iff.mpr ⟨a, n, first, rfl⟩
  rw [parse, if_pos fault, found]
  rfl

/-- Only a tree with a fault is refused. -/
theorem hasFault_of_error {fault : SyntaxFault} (refused : parse source t = .error fault) : t.hasFault := by
  by_contra sound
  rw [parse_eq_ok (Bool.eq_false_iff.mpr sound)] at refused
  cases refused

theorem exists_firstFault_of_error {fault : SyntaxFault} (refused : parse source t = .error fault) :
    ∃ a n, t.FirstFault a n := by
  obtain ⟨label, found⟩ :=
    Option.isSome_iff_exists.mp (Concrete.isSome_firstFault?.mpr (hasFault_of_error refused))
  obtain ⟨a, n, first, _⟩ := Concrete.firstFault?_eq_some_iff.mp found
  exact ⟨a, n, first⟩

/-- A tree is refused exactly if a node of it is a fault, and what is reported is the position of the
first one in pre-order. The search for it, which enters only trees with a fault, agrees with the plain
one, and finds one whenever it is made. A tree without faults has an outline. -/
theorem parse_firstFault (source : List Char) (t : Concrete) :
    ((∃ fault, parse source t = .error fault) ↔ ∃ a n, t.at? a = some n ∧ n.label.mark.isFault) ∧
    (∀ fault, parse source t = .error fault ↔
      ∃ a n, t.FirstFault a n ∧ fault = ⟨Text.positionAt source n.label.start⟩) ∧
    t.firstFault? = t.labels.find? (·.mark.isFault) ∧ (t.firstFault?.isSome ↔ t.hasFault) ∧
    ((∀ a n, t.at? a = some n → n.label.mark.isFault = false) →
      parse source t = .ok (ofConcrete source t)) := by
  refine ⟨?_, fun fault => ?_, t.firstFault?_eq_find?, Concrete.isSome_firstFault?, fun sound => ?_⟩
  · constructor
    · rintro ⟨fault, refused⟩
      exact Concrete.hasFault_iff_at?.mp (hasFault_of_error refused)
    · intro faulty
      exact ⟨_, if_pos (Concrete.hasFault_iff_at?.mpr faulty)⟩
  · constructor
    · intro refused
      obtain ⟨a, n, first⟩ := exists_firstFault_of_error refused
      rw [parse_of_firstFault first] at refused
      exact ⟨a, n, first, (Except.error.inj refused).symm⟩
    · rintro ⟨a, n, first, rfl⟩
      exact parse_of_firstFault first
  · refine parse_eq_ok (Bool.eq_false_iff.mpr fun fault => ?_)
    obtain ⟨a, n, reached, fault⟩ := Concrete.hasFault_iff_at?.mp fault
    rw [sound a n reached] at fault
    cases fault

/-- Three statements: the first is in order, the second lacks a bracket, which is a token, and the third
is an error with an error in it. -/
def faultyText : List Char :=
  "a;\nf(;\nvar ;".toList

def lackingBracket : Concrete :=
  .node ⟨")", 5, 5, none, .missingToken⟩ []

def faultyTree : Concrete :=
  .node ⟨"program", 0, 12, none, .named⟩
    [.node ⟨"expression_statement", 0, 2, none, .named⟩
      [.node ⟨"identifier", 0, 1, none, .named⟩ []],
    .node ⟨"expression_statement", 3, 6, none, .named⟩
      [.node ⟨"call_expression", 3, 5, none, .named⟩
        [.node ⟨"identifier", 3, 4, some "function", .named⟩ [],
          .node ⟨"arguments", 4, 5, some "arguments", .named⟩ [lackingBracket]]],
    .node ⟨"ERROR", 7, 12, none, .error⟩ [.node ⟨"ERROR", 7, 10, none, .error⟩ []]]

theorem parse_firstFault_nested :
    faultyTree.at? [1, 0, 1, 0] = some lackingBracket ∧ lackingBracket.label.mark.isFault ∧
      parse faultyText faultyTree = .error ⟨⟨2, 3⟩⟩ ∧
      (∀ a n, sampleTree.at? a = some n → n.label.mark.isFault = false) ∧
      parse sampleText sampleTree = .ok (ofConcrete sampleText sampleTree) := by
  have found : faultyTree.firstFault? = some lackingBracket.label := by decide +kernel
  obtain ⟨a, n, first, same⟩ := Concrete.firstFault?_eq_some_iff.mp found
  obtain ⟨_, reported, _⟩ := parse_firstFault faultyText faultyTree
  obtain ⟨_, _, _, _, accepted⟩ := parse_firstFault sampleText sampleTree
  have sound : ∀ a n, sampleTree.at? a = some n → n.label.mark.isFault = false := by
    intro a n reached
    by_contra fault
    have faulty := Concrete.hasFault_iff_at?.mpr ⟨a, n, reached, by simpa using fault⟩
    exact absurd faulty (by decide)
  refine ⟨rfl, rfl, (reported _).mpr ⟨a, n, first, ?_⟩, sound, accepted sound⟩
  rw [same]
  decide

end Outline

end ScopeLint
