import Mathlib.Data.List.Pairwise
import Mathlib.Data.List.Sort
import ScopeLint.Proofs.Components
import ScopeLint.Report

/-!
# Stable sorting

Files and findings are put in order by merging. `SortedFrom` says what the result of a stable sort is,
without reference to the way it is made: the same members, in ascending order, those that compare equal in
the order they were given. The comparisons are by path, and by path, line and column.
-/

namespace ScopeLint

variable {α : Type} {cmp : α → α → Ordering} {given sorted : List α}

/-- Whether a list is another one, sorted stably. -/
structure SortedFrom (cmp : α → α → Ordering) (given sorted : List α) : Prop where
  perm : sorted.Perm given
  ascending : sorted.Pairwise fun a b => (cmp a b).isLE
  stable : ∀ a ∈ given, sorted.filter (cmp a · = .eq) = given.filter (cmp a · = .eq)

/-- Merging goes by a total comparison. -/
theorem isLE_total [Std.OrientedCmp cmp] (a b : α) : (cmp a b).isLE || (cmp b a).isLE := by
  have swapped : cmp b a = (cmp a b).swap := Std.OrientedCmp.eq_swap
  rw [swapped]
  cases cmp a b <;> rfl

theorem mergeSort_ascending [Std.TransCmp cmp] (l : List α) :
    (l.mergeSort fun a b => (cmp a b).isLE).Pairwise fun a b => (cmp a b).isLE :=
  List.pairwise_mergeSort (fun _ _ _ => Std.TransCmp.isLE_trans) isLE_total l

theorem mergeSort_sortedFrom [Std.TransCmp cmp] (l : List α) :
    SortedFrom cmp l (l.mergeSort fun a b => (cmp a b).isLE) where
  perm := List.mergeSort_perm l _
  ascending := mergeSort_ascending l
  stable := by
    intro a _
    -- those that compare equal to `a` are ascending as they are given, and so are not reordered
    have level : (l.filter (cmp a · = .eq)).Pairwise fun x y => (cmp x y).isLE := by
      refine List.pairwise_of_forall_mem_list fun x inX y inY => ?_
      have eqX : cmp a x = .eq := of_decide_eq_true (List.mem_filter.mp inX).2
      have eqY : cmp a y = .eq := of_decide_eq_true (List.mem_filter.mp inY).2
      rw [Std.TransCmp.eq_trans (Std.OrientedCmp.eq_symm eqX) eqY]
      rfl
    have kept : (l.filter (cmp a · = .eq)).Sublist (l.mergeSort fun a b => (cmp a b).isLE) :=
      List.sublist_mergeSort (fun _ _ _ => Std.TransCmp.isLE_trans) isLE_total level List.filter_sublist
    have within := kept.filter (cmp a · = .eq)
    rw [List.filter_filter] at within
    simp only [Bool.and_self] at within
    have sameLength := ((List.mergeSort_perm l fun a b => (cmp a b).isLE).filter (cmp a · = .eq)).length_eq
    exact (within.eq_of_length sameLength.symm).symm

/-- Where no two members compare equal, the order in which they are given does not matter. -/
theorem mergeSort_eq_of_perm [Std.TransCmp cmp] {l l' : List α} (same : l.Perm l')
    (distinct : l.Pairwise fun a b => cmp a b ≠ .eq) :
    (l.mergeSort fun a b => (cmp a b).isLE) = l'.mergeSort fun a b => (cmp a b).isLE := by
  have members := (List.mergeSort_perm l fun a b => (cmp a b).isLE).trans
    (same.trans (List.mergeSort_perm l' fun a b => (cmp a b).isLE).symm)
  refine List.Perm.eq_of_pairwise ?_ (mergeSort_ascending l) (mergeSort_ascending l') members
  intro a b inLeft inRight le ge
  have inA : a ∈ l := List.mem_mergeSort.mp inLeft
  have inB : b ∈ l := same.mem_iff.mpr (List.mem_mergeSort.mp inRight)
  have symmetric : Std.Symm fun a b => cmp a b ≠ .eq :=
    ⟨fun _ _ unequal equal => unequal (Std.OrientedCmp.eq_symm equal)⟩
  by_contra apart
  exact distinct.forall inA inB apart (Std.OrientedCmp.isLE_antisymm le ge)

namespace Report

variable {a b : Finding}

/-- The order of findings in one file: by line, then by column. -/
def comparePositions (a b : Finding) : Ordering :=
  (compare a.location.line b.location.line).then (compare a.location.column b.location.column)

instance : Std.TransCmp comparePlaces :=
  inferInstanceAs (Std.TransCmp (compareLex (compareOn fun f : Finding => f.location.file.key)
    (compareLex (compareOn fun f : Finding => f.location.line)
      (compareOn fun f : Finding => f.location.column))))

theorem comparePlaces_of_same_file (same : a.location.file.components = b.location.file.components) :
    comparePlaces a b = comparePositions a b := by
  rw [comparePlaces, Path.key_eq_iff.mpr same, Std.compare_self, Ordering.eq_then, comparePositions]

theorem same_file_of_comparePlaces (equal : comparePlaces a b = .eq) :
    a.location.file.components = b.location.file.components :=
  Path.key_eq_iff.mp (Std.compare_eq_iff_eq.mp (Ordering.then_eq_eq.mp equal).1)

/-- The findings of one file in a sorted list are those of the file that were given, sorted by their
positions. -/
theorem sortedFrom_ofFile {given sorted : List Finding} (order : SortedFrom comparePlaces given sorted)
    (file : Path) :
    SortedFrom comparePositions (given.filter (·.location.file.components = file.components))
      (sorted.filter (·.location.file.components = file.components)) where
  perm := order.perm.filter _
  ascending := by
    refine (order.ascending.filter _).imp_of_mem fun {a b} inA inB le => ?_
    have here : a.location.file.components = file.components :=
      of_decide_eq_true (List.mem_filter.mp inA).2
    have there : b.location.file.components = file.components :=
      of_decide_eq_true (List.mem_filter.mp inB).2
    rwa [comparePlaces_of_same_file (here.trans there.symm)] at le
  stable := by
    intro a member
    obtain ⟨given, inFile⟩ := List.mem_filter.mp member
    have here : a.location.file.components = file.components := of_decide_eq_true inFile
    -- in one file, being at the same position is being at the same place
    have place : ∀ b, (decide (comparePositions a b = .eq) &&
        decide (b.location.file.components = file.components)) = decide (comparePlaces a b = .eq) := by
      intro b
      by_cases there : b.location.file.components = file.components
      · simp [there, comparePlaces_of_same_file (here.trans there.symm)]
      · have apart : comparePlaces a b ≠ .eq := fun equal =>
          there ((same_file_of_comparePlaces equal).symm.trans here)
        simp [there, apart]
    rw [List.filter_filter, List.filter_filter]
    simp only [place]
    exact order.stable a given

end Report

end ScopeLint
