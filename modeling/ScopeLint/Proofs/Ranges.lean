import Mathlib.Data.List.Chain
import ScopeLint.Proofs.Address

/-!
# Byte ranges in a concrete tree

The children of a node lie inside it and one after the other. What is below them does so too: of two nodes
in pre-order the second lies inside the first, or it starts after the end of the first. In a loop that
declares its variable the keyword comes first and the binding next, so what the outline keeps of the loop
lies at the binding or after it.
-/

namespace ScopeLint

namespace Address

variable {a b : Address}

/-- A walk comes from an address to one below it, or to one below a later child on the way. -/
theorem Before.cases (before : Before a b) : (∃ number rest, b = a ++ number :: rest) ∨
    ∃ top left right rest rest', left < right ∧ a = top ++ left :: rest ∧ b = top ++ right :: rest' := by
  induction before with
  | nil => exact .inl ⟨_, _, rfl⟩
  | rel less => exact .inr ⟨[], _, _, _, _, less, rfl, rfl⟩
  | cons _ ih =>
      rcases ih with ⟨number, rest, rfl⟩ | ⟨top, left, right, rest, rest', less, rfl, rfl⟩
      · exact .inl ⟨number, rest, rfl⟩
      · exact .inr ⟨_ :: top, left, right, rest, rest', less, rfl, rfl⟩

end Address

namespace Concrete

/-! ## Ranges in a tree -/

mutual

/-- Whether a condition holds of a node and of every node below it. -/
def everywhere (holds : Concrete → Bool) : Concrete → Bool
  | node label children => holds (node label children) && allEverywhere holds children

def allEverywhere (holds : Concrete → Bool) : List Concrete → Bool
  | [] => true
  | t :: ts => t.everywhere holds && allEverywhere holds ts

end

/-- Whether the range of a node lies between two offsets. -/
def liesWithin (start stop : Nat) (t : Concrete) : Bool :=
  start ≤ t.label.start && t.label.start ≤ t.label.stop && t.label.stop ≤ stop

/-- Whether the children of a node lie inside it, and each ends before the next one starts. -/
def childrenInOrder (t : Concrete) : Bool :=
  t.children.all (liesWithin t.label.start t.label.stop) &&
    t.children.IsChain fun child next => child.label.stop ≤ next.label.start

/-- Whether the keyword of a loop that declares its variable comes before the binding, and the binding
before all else but comments and tokens. -/
def headerInOrder (t : Concrete) : Bool :=
  if t.kind = "for_in_statement" then
    match t.children.findIdx? (fills "kind"), t.children.findIdx? (fills "left") with
    | some keyword, some left => keyword < left && (t.children.take left).all (!·.isVisible)
    | _, _ => true
  else true

variable {holds : Concrete → Bool} {t n m c d keyword left : Concrete} {ts : List Concrete}
variable {a b : Address} {i j start stop : Nat}

theorem allEverywhere_iff : allEverywhere holds ts ↔ ∀ t ∈ ts, t.everywhere holds := by
  induction ts with
  | nil => simp [allEverywhere]
  | cons t ts ih => simp [allEverywhere, ih]

theorem everywhere_iff :
    t.everywhere holds ↔ holds t ∧ ∀ child ∈ t.children, child.everywhere holds := by
  obtain ⟨label, children⟩ := t
  rw [everywhere, Bool.and_eq_true, allEverywhere_iff]
  rfl

theorem everywhere_at? (all : t.everywhere holds) (found : t.at? a = some n) : n.everywhere holds := by
  induction a generalizing t with
  | nil =>
      cases found
      exact all
  | cons number rest ih =>
      obtain ⟨child, place, found⟩ := Option.bind_eq_some_iff.mp found
      exact ih ((everywhere_iff.mp all).2 child (List.mem_of_getElem? place)) found

theorem liesWithin_iff : t.liesWithin start stop ↔
    start ≤ t.label.start ∧ t.label.start ≤ t.label.stop ∧ t.label.stop ≤ stop := by
  simp [liesWithin, and_assoc]

/-- Whether a tree has a range, and the ranges below it are nested and in order. -/
structure Ranged (t : Concrete) : Prop where
  range : t.label.start ≤ t.label.stop
  inOrder : t.everywhere childrenInOrder

namespace Ranged

theorem child_within (h : t.Ranged) (place : t.children[i]? = some c) :
    c.liesWithin t.label.start t.label.stop := by
  have here := (everywhere_iff.mp h.inOrder).1
  rw [childrenInOrder, Bool.and_eq_true] at here
  exact List.all_eq_true.mp here.1 c (List.mem_of_getElem? place)

theorem child (h : t.Ranged) (place : t.children[i]? = some c) : c.Ranged where
  range := (liesWithin_iff.mp (h.child_within place)).2.1
  inOrder := (everywhere_iff.mp h.inOrder).2 c (List.mem_of_getElem? place)

/-- What is found in a tree lies inside it. -/
theorem within (h : t.Ranged) (found : t.at? a = some n) :
    n.liesWithin t.label.start t.label.stop := by
  induction a generalizing t with
  | nil =>
      cases found
      exact liesWithin_iff.mpr ⟨Nat.le_refl _, h.range, Nat.le_refl _⟩
  | cons number rest ih =>
      obtain ⟨child, place, found⟩ := Option.bind_eq_some_iff.mp found
      have outer := liesWithin_iff.mp (h.child_within place)
      have inner := liesWithin_iff.mp (ih (h.child place) found)
      exact liesWithin_iff.mpr ⟨by omega, inner.2.1, by omega⟩

theorem at? (h : t.Ranged) (found : t.at? a = some n) : n.Ranged where
  range := (liesWithin_iff.mp (h.within found)).2.1
  inOrder := everywhere_at? h.inOrder found

/-- An earlier child ends before a later one starts, also where there are others between them. -/
theorem children_apart (h : t.Ranged) (less : i < j) (left : t.children[i]? = some c)
    (right : t.children[j]? = some d) : c.label.stop ≤ d.label.start := by
  have here := (everywhere_iff.mp h.inOrder).1
  rw [childrenInOrder, Bool.and_eq_true, decide_eq_true_iff] at here
  have step : ∀ k, i < k → ∀ e, t.children[k]? = some e → c.label.stop ≤ e.label.start := by
    intro k later
    induction k, later using Nat.le_induction with
    | base =>
        intro e place
        obtain ⟨bound, rfl⟩ := List.getElem?_eq_some_iff.mp left
        obtain ⟨bound', rfl⟩ := List.getElem?_eq_some_iff.mp place
        exact List.isChain_iff_getElem.mp here.2 i bound'
    | succ k later ih =>
        intro e place
        obtain ⟨bound, rfl⟩ := List.getElem?_eq_some_iff.mp place
        have previous : t.children[k]? = some t.children[k] := List.getElem?_eq_getElem (by omega)
        have range := (h.child previous).range
        exact (ih _ previous).trans (range.trans (List.isChain_iff_getElem.mp here.2 k bound))
  exact step j less d right

/-- What is found below an earlier child ends before what is found below a later one. -/
theorem branches_apart (h : t.Ranged) (less : i < j) (left : t.at? (i :: a) = some n)
    (right : t.at? (j :: b) = some m) : n.label.stop ≤ m.label.start := by
  obtain ⟨c, place, left⟩ := Option.bind_eq_some_iff.mp left
  obtain ⟨d, place', right⟩ := Option.bind_eq_some_iff.mp right
  have apart := h.children_apart less place place'
  have inC := liesWithin_iff.mp ((h.child place).within left)
  have inD := liesWithin_iff.mp ((h.child place').within right)
  omega

/-- A node lies inside every node above it. -/
theorem within_above (h : t.Ranged) (above : b <+: a) (outer : t.at? b = some m)
    (inner : t.at? a = some n) : n.liesWithin m.label.start m.label.stop := by
  obtain ⟨rest, rfl⟩ := above
  rw [at?_append, outer, Option.bind_some] at inner
  exact (h.at? outer).within inner

/-- Nodes apart from each other end and start in pre-order. -/
theorem stop_le_start (h : t.Ranged) (before : a.Before b) (apart : ¬ a <+: b)
    (first : t.at? a = some n) (second : t.at? b = some m) : n.label.stop ≤ m.label.start := by
  rcases before.cases with ⟨number, rest, rfl⟩ | ⟨top, left, right, rest, rest', less, rfl, rfl⟩
  · exact absurd (List.prefix_append a _) apart
  · rw [at?_append] at first second
    obtain ⟨common, found, first⟩ := Option.bind_eq_some_iff.mp first
    rw [found, Option.bind_some] at second
    exact (h.at? found).branches_apart less first second

/-- Nodes start in pre-order. -/
theorem start_le_start (h : t.Ranged) (before : a.Before b) (first : t.at? a = some n)
    (second : t.at? b = some m) : n.label.start ≤ m.label.start := by
  by_cases above : a <+: b
  · exact (liesWithin_iff.mp (h.within_above above first second)).1
  · exact (h.at? first).range.trans (h.stop_le_start before above first second)

end Ranged

/-! ## Headers -/

/-- The keyword and the binding of a header in order, by their numbers. -/
structure HeaderPlaces (t keyword left : Concrete) (i j : Nat) : Prop where
  binding : t.children.findIdx? (fills "left") = some j
  less : i < j
  keyword : t.children[i]? = some keyword
  left : t.children[j]? = some left
  hidden : ∀ number child, number < j → t.children[number]? = some child → child.isVisible = false

theorem exists_findIdx?_of_child? {field : String} (found : t.child? field = some c) :
    ∃ i, t.children.findIdx? (fills field) = some i ∧ t.children[i]? = some c := by
  cases first : t.children.findIdx? (fills field) with
  | none =>
      have filled := List.find?_some found
      rw [List.findIdx?_eq_none_iff.mp first c (List.mem_of_find?_eq_some found)] at filled
      cases filled
  | some i =>
      refine ⟨i, rfl, ?_⟩
      rw [← find?_of_findIdx? first]
      exact found

theorem exists_headerPlaces (inOrder : t.headerInOrder) (header : t.loopHeader? = some (keyword, left)) :
    ∃ i j, HeaderPlaces t keyword left i j := by
  have fields := header?_of_loopHeader? header
  unfold header? at fields
  split at fields
  · rename_i keyword' left' first second
    cases fields
    obtain ⟨i, isFirst, place⟩ := exists_findIdx?_of_child? first
    obtain ⟨j, isFirst', place'⟩ := exists_findIdx?_of_child? second
    rw [headerInOrder, if_pos (kind_of_loopHeader? header), isFirst, isFirst'] at inOrder
    simp only [Bool.and_eq_true, decide_eq_true_eq, List.all_eq_true, Bool.not_eq_true'] at inOrder
    refine ⟨i, j, isFirst', inOrder.1, place, place', fun number child early here => ?_⟩
    refine inOrder.2 child (List.mem_of_getElem? (i := number) ?_)
    rw [List.getElem?_take_of_lt early, here]
  · cases fields

namespace HeaderPlaces

/-- The range of a header has an end after its start, and lies inside the loop. -/
theorem within (places : HeaderPlaces t keyword left i j) (h : t.Ranged) :
    t.label.start ≤ keyword.label.start ∧ keyword.label.start ≤ left.label.stop ∧
      left.label.stop ≤ t.label.stop := by
  have first := liesWithin_iff.mp (h.child_within places.keyword)
  have second := liesWithin_iff.mp (h.child_within places.left)
  have apart := h.children_apart places.less places.keyword places.left
  omega

/-- What the outline keeps of a loop stands at the binding or after it. -/
theorem binding_le (places : HeaderPlaces n keyword left i j) (found : t.at? a = some n)
    {number : Nat} {rest : Address} (kept : t.Kept (a ++ number :: rest)) : j ≤ number := by
  have way : a ++ [number] <+: a ++ number :: rest :=
    (List.prefix_append_right_inj a).mpr (List.prefix_append [number] rest)
  obtain ⟨child, place, named, shown⟩ := kept.reached (a ++ [number]) (by simp) way
  rw [at?_concat found] at place
  by_contra early
  have hidden := places.hidden number child (Nat.lt_of_not_le early) place
  rw [isVisible_iff.mpr ⟨named, shown⟩] at hidden
  cases hidden

/-- What the outline keeps after a loop, also below it, starts after the keyword. -/
theorem start_le (places : HeaderPlaces n keyword left i j) (h : t.Ranged) (found : t.at? a = some n)
    (before : a.Before b) (kept : t.Kept b) (second : t.at? b = some m) :
    keyword.label.start ≤ m.label.start := by
  have inLoop := places.within (h.at? found)
  rcases before.cases with ⟨number, rest, rfl⟩ | ⟨top, first, later, rest, rest', less, rfl, rfl⟩
  · have beyond : i < number := Nat.lt_of_lt_of_le places.less (places.binding_le found kept)
    have atKeyword : n.at? [i] = some keyword := (at?_cons places.keyword []).trans rfl
    rw [at?_append, found, Option.bind_some] at second
    have range := ((h.at? found).child places.keyword).range
    exact range.trans ((h.at? found).branches_apart beyond atKeyword second)
  · have apart : ¬ top ++ first :: rest <+: top ++ later :: rest' := by
      simp [Nat.ne_of_lt less]
    have after := h.stop_le_start before apart found second
    omega

end HeaderPlaces

theorem Headed.exists_places (headed : t.Headed a keyword left) (inOrder : t.everywhere headerInOrder) :
    ∃ n i j, t.at? a = some n ∧ HeaderPlaces n keyword left i j := by
  obtain ⟨n, found, header⟩ := headed.loop
  have here := (everywhere_iff.mp (everywhere_at? inOrder found)).1
  obtain ⟨i, j, places⟩ := exists_headerPlaces here header
  exact ⟨n, i, j, found, places⟩

end Concrete

end ScopeLint
