import Mathlib.Data.List.Sort
import Mathlib.Logic.Function.Iterate
import ScopeLint.Proofs.Nesting
import ScopeLint.Proofs.Faithful

/-!
# Walks through an outline

`visits` goes down recursively. The same visits can be made with a list of pending nodes and one path
that all of them share: each node waits with the number of nodes above it, and the path, cut to that
length when its turn comes, is its lineage. `Walk.Sound` is what keeps this right: the lineage of every
pending node begins the path, and no node waits before a deeper one, so that cutting the path never
touches what a later node needs.

A visitor is any state that is led through the outline. It may be interested in nodes of some kinds only.
-/

namespace ScopeLint.Outline

open scoped List

variable {o : Outline} {id parent left right x y : Nat}

/-! ## Pre-order -/

/-- Pre-order: a node comes before those below it, and what is at or below a child of a node comes before
what is at or below a later one. -/
inductive Precedes (o : Outline) : Nat → Nat → Prop
  | above {id x : Nat} (way : id ∈ o.lineage x) : Precedes o id x
  | beside {parent left right x y : Nat} (order : [left, right] <+ o.children parent)
      (wayLeft : left ∈ o.upward x) (wayRight : right ∈ o.upward y) : Precedes o x y

/-- Whether a list of visits meets every node of the kinds of interest once, in pre-order, with the
lineage that its parent links give, and meets nothing else. -/
structure Tours (o : Outline) (interest : Kind → Bool) (visits : List Visit) : Prop where
  met : ∀ visit, visit ∈ visits ↔ visit.node < o.size ∧ interest (o.kind visit.node) ∧
    visit.lineage = o.lineage visit.node
  once : (visits.map Visit.node).Nodup
  ordered : visits.Pairwise fun first later => o.Precedes first.node later.node

/-- Children come in the order of their indices. -/
theorem Linked.sublist_children (h : o.Linked) (isLeft : o.parent? left = some parent)
    (isRight : o.parent? right = some parent) (less : left < right) :
    [left, right] <+ o.children parent := by
  have ascending : [left, right].Pairwise (· < ·) := List.pairwise_pair.mpr less
  have members : [left, right] ⊆ o.children parent := by
    intro child member
    rcases List.mem_pair.mp member with rfl | rfl
    · exact (h.mem_children _ _).mpr isLeft
    · exact (h.mem_children _ _).mpr isRight
  have distinct : [left, right].Nodup := ascending.imp Nat.ne_of_lt
  exact List.sublist_of_subperm_of_pairwise (List.subperm_of_subset distinct members) ascending
    (h.ascending parent)

/-- No node is below two children of one node. -/
theorem Linked.child_unique (h : o.Linked) (isLeft : o.parent? left = some parent)
    (isRight : o.parent? right = some parent) (inside : x < o.size) (wayLeft : left ∈ o.upward x)
    (wayRight : right ∈ o.upward x) : left = right := by
  -- the ways up from the two children are equally long ends of one way
  have sameLength : (o.upward left).length = (o.upward right).length := by
    rw [upward_of_parent? h isLeft, upward_of_parent? h isRight]
    rfl
  have within := List.suffix_of_suffix_length_le (upward_suffix h inside wayLeft)
    (upward_suffix h inside wayRight) (Nat.le_of_eq sameLength)
  have same : o.upward left = o.upward right := within.eq_of_length sameLength
  exact (List.cons.inj same).1

theorem visits_nodup (h : o.Linked) : (o.visits.map Visit.node).Nodup := by
  have start : root < o.size := h.inhabited
  rw [List.Nodup, List.pairwise_map, visits, ← lineage_root h]
  refine visitsFrom_pairwise h ?_ ?_ start
  · intro id x inside above
    exact Nat.ne_of_lt (List.rel_of_pairwise_cons (upward_descending h inside) above)
  · intro parent left right isLeft isRight less x y inside _ wayLeft wayRight same
    subst same
    exact Nat.ne_of_lt less (h.child_unique isLeft isRight inside wayLeft wayRight)

theorem visits_precedes (h : o.Linked) :
    o.visits.Pairwise fun first later => o.Precedes first.node later.node := by
  have start : root < o.size := h.inhabited
  rw [visits, ← lineage_root h]
  refine visitsFrom_pairwise h ?_ ?_ start
  · intro id x _ above
    exact .above above
  · intro parent left right isLeft isRight less x y _ _ wayLeft wayRight
    exact .beside (h.sublist_children isLeft isRight less) wayLeft wayRight

theorem visitsWhere_tours (h : o.Linked) (interest : Kind → Bool) :
    o.Tours interest (o.visitsWhere interest) where
  met := by
    intro visit
    rw [visitsWhere, List.mem_filter, mem_visits h, and_assoc]
    exact and_congr_right fun _ => And.comm
  once := (visits_nodup h).sublist (List.filter_sublist.map _)
  ordered := (visits_precedes h).filter _

/-- Every node is visited, and none twice, so there are as many visits as nodes. -/
theorem length_visits (h : o.Linked) : o.visits.length = o.size := by
  have sameNodes : (o.visits.map Visit.node).Perm o.ids := by
    refine (List.perm_ext_iff_of_nodup (visits_nodup h) List.nodup_range).mpr fun id => ?_
    rw [mem_map_visits h, List.mem_range]
  have sameLength := sameNodes.length_eq
  rwa [List.length_map, ids, List.length_range] at sameLength

/-! ## Walking with a shared path -/

/-- What is led through an outline: whether it is interested in nodes of a kind, and what becomes of it
when it is shown one. Both may depend on what it has been shown before. -/
structure Visitor (σ : Type) where
  interest : σ → Kind → Bool
  visit : σ → Visit → σ

variable {σ : Type} {v : Visitor σ} {s : σ}

/-- Offer a visit to a visitor. -/
def Visitor.meet (v : Visitor σ) (o : Outline) (s : σ) (visit : Visit) : σ :=
  if v.interest s (o.kind visit.node) then v.visit s visit else s

/-- A visitor that is interested in the same kinds all the time is shown the nodes of these kinds. -/
theorem Visitor.foldl_meet {interest : Kind → Bool} (steady : ∀ s, v.interest s = interest) :
    o.visits.foldl (v.meet o) s = (o.visitsWhere interest).foldl v.visit s := by
  rw [visitsWhere, List.foldl_filter]
  congr 1
  funext s visit
  rw [meet, steady]

/-- A walk under way: the path from the root to the last node met, the nodes yet to be met, each with the
number of nodes above it, and the state of the visitor. -/
structure Walk (σ : Type) where
  path : List Nat
  pending : List (Nat × Nat)
  state : σ

namespace Walk

def start (s : σ) : Walk σ :=
  { path := [], pending := [(root, 0)], state := s }

/-- Meet the next pending node. Its children take its place, in front of what else is pending. -/
def step (o : Outline) (v : Visitor σ) (w : Walk σ) : Walk σ :=
  match w.pending with
  | [] => w
  | (node, depth) :: pending =>
      let above := w.path.take depth
      { path := above ++ [node]
        pending := (o.children node).map (fun child => (child, depth + 1)) ++ pending
        state := v.meet o w.state ⟨node, above.reverse⟩ }

/-- Whether the path can be cut to the lineage of each pending node when its turn comes. -/
structure Sound (o : Outline) (w : Walk σ) : Prop where
  depth : ∀ entry ∈ w.pending, entry.2 = (o.lineage entry.1).length
  onPath : ∀ entry ∈ w.pending, (o.lineage entry.1).fromRoot <+: w.path
  deepestFirst : w.pending.Pairwise fun first later => later.2 ≤ first.2

/-- The visits that a walk has yet to make. -/
def ahead (o : Outline) (w : Walk σ) : List Visit :=
  w.pending.flatMap fun entry => o.visitsFrom entry.1 (o.lineage entry.1)

theorem start_sound (h : o.Linked) (s : σ) : (start s).Sound o := by
  have bare : o.lineage root = [] := lineage_root h
  refine ⟨?_, ?_, List.pairwise_singleton _ _⟩ <;>
    rintro entry member <;>
    obtain rfl := List.mem_singleton.mp member
  · rw [bare]
    rfl
  · rw [bare]
    exact List.nil_prefix

theorem ahead_start (h : o.Linked) (s : σ) : (start s).ahead o = o.visits := by
  rw [ahead, start, List.flatMap_singleton, lineage_root h, visits]

variable {w : Walk σ} {node depth : Nat} {pending : List (Nat × Nat)}

/-- The path of a sound walk, cut for the next node, is the lineage of that node. -/
theorem Sound.cut (sound : w.Sound o) (next : w.pending = (node, depth) :: pending) :
    w.path.take depth = (o.lineage node).fromRoot := by
  have first : (node, depth) ∈ w.pending := by
    rw [next]
    exact List.mem_cons_self
  have known : depth = (o.lineage node).fromRoot.length := by
    rw [Lineage.fromRoot, List.length_reverse]
    exact sound.depth _ first
  rw [known]
  exact (List.prefix_iff_eq_take.mp (sound.onPath _ first)).symm

/-- A step of a sound walk meets the next node with its lineage. -/
theorem Sound.step_eq (sound : w.Sound o) (next : w.pending = (node, depth) :: pending) :
    w.step o v =
      { path := (o.upward node).reverse
        pending := (o.children node).map (fun child => (child, depth + 1)) ++ pending
        state := v.meet o w.state ⟨node, o.lineage node⟩ } := by
  have cut := sound.cut next
  have whole : w.path.take depth ++ [node] = (o.upward node).reverse := by
    rw [cut]
    exact List.reverse_cons.symm
  have back : (w.path.take depth).reverse = o.lineage node := by
    rw [cut, Lineage.fromRoot, List.reverse_reverse]
  unfold step
  rw [next]
  simp only [whole, back]

/-- The children of the next node wait with the whole new path above them. -/
theorem Sound.step (sound : w.Sound o) (h : o.Linked)
    (next : w.pending = (node, depth) :: pending) : (w.step o v).Sound o := by
  have first : (node, depth) ∈ w.pending := by
    rw [next]
    exact List.mem_cons_self
  have rest : ∀ entry ∈ pending, entry ∈ w.pending := by
    intro entry member
    rw [next]
    exact List.mem_cons_of_mem _ member
  have known : depth = (o.lineage node).length := sound.depth _ first
  have order := sound.deepestFirst
  rw [next, List.pairwise_cons] at order
  have child : ∀ c ∈ o.children node, o.lineage c = o.upward node := by
    intro c member
    exact lineage_of_parent? h ((h.mem_children _ _).mp member)
  rw [sound.step_eq next]
  refine ⟨?_, ?_, ?_⟩
  · intro entry member
    rcases List.mem_append.mp member with new | old
    · obtain ⟨c, isChild, rfl⟩ := List.mem_map.mp new
      rw [child c isChild, known]
      rfl
    · exact sound.depth entry (rest entry old)
  · intro entry member
    rcases List.mem_append.mp member with new | old
    · obtain ⟨c, isChild, rfl⟩ := List.mem_map.mp new
      rw [child c isChild]
      exact List.prefix_refl _
    · -- what waits behind the node needs no more of the path than the node itself
      have short : (o.lineage entry.1).fromRoot.length ≤ depth := by
        rw [Lineage.fromRoot, List.length_reverse, ← sound.depth entry (rest entry old)]
        exact order.1 entry old
      have kept : (o.lineage entry.1).fromRoot <+: w.path.take depth :=
        List.prefix_take_iff.mpr ⟨sound.onPath entry (rest entry old), short⟩
      rw [sound.cut next] at kept
      have grown : (o.lineage node).fromRoot <+: (o.upward node).reverse := by
        rw [upward, List.reverse_cons]
        exact List.prefix_append _ _
      exact kept.trans grown
  · refine List.pairwise_append.mpr ⟨?_, order.2, ?_⟩
    · rw [List.pairwise_map]
      exact List.pairwise_of_forall fun _ _ => Nat.le_refl _
    · intro entry new later old
      obtain ⟨c, _, rfl⟩ := List.mem_map.mp new
      exact Nat.le_succ_of_le (order.1 later old)

/-- A step makes the first of the visits ahead. -/
theorem Sound.ahead_eq (sound : w.Sound o) (h : o.Linked)
    (next : w.pending = (node, depth) :: pending) :
    w.ahead o = ⟨node, o.lineage node⟩ :: (w.step o v).ahead o := by
  have below : ∀ c ∈ o.children node,
      o.visitsFrom c (node :: o.lineage node) = o.visitsFrom c (o.lineage c) := by
    intro c member
    rw [lineage_of_parent? h ((h.mem_children _ _).mp member)]
    rfl
  rw [sound.step_eq next, ahead, ahead, next, List.flatMap_cons, visitsFrom_eq h,
    List.flatMap_congr below, List.flatMap_append, List.flatMap_map]
  rfl

/-- A sound walk makes the visits ahead of it in turn, one at each step, and is then at its end. -/
theorem Sound.run (h : o.Linked) {visits : List Visit} (sound : w.Sound o)
    (left : w.ahead o = visits) :
    ((Walk.step o v)^[visits.length] w).pending = [] ∧
      ((Walk.step o v)^[visits.length] w).state = visits.foldl (v.meet o) w.state := by
  induction visits generalizing w with
  | nil =>
      refine ⟨?_, rfl⟩
      cases next : w.pending with
      | nil => exact next
      | cons entry pending =>
          have impossible := sound.ahead_eq h (v := v) next
          rw [left] at impossible
          cases impossible
  | cons visit visits ih =>
      cases next : w.pending with
      | nil =>
          rw [ahead, next] at left
          cases left
      | cons entry pending =>
          have here := sound.ahead_eq h (v := v) next
          rw [left] at here
          obtain ⟨rfl, onward⟩ := List.cons.inj here
          have after := ih (sound.step h next) onward.symm
          rw [sound.step_eq next] at after
          rw [List.length_cons, Function.iterate_succ_apply, sound.step_eq next]
          exact after

/-- A walk from the root offers the visitor every visit in turn, in as many steps as there are nodes. -/
theorem run_start (h : o.Linked) (v : Visitor σ) (s : σ) :
    ((Walk.step o v)^[o.size] (start s)).pending = [] ∧
      ((Walk.step o v)^[o.size] (start s)).state = o.visits.foldl (v.meet o) s := by
  rw [← length_visits h]
  exact (start_sound h s).run h (ahead_start h s)

end Walk

/-! ## Visiting what a source text holds -/

/-- In the outline of a tree without faults, visiting meets the nodes of the kinds of interest once each,
in pre-order and with their lineages. A walk with a shared path offers any visitor the same visits, and
shows a visitor of steady interest those of its kinds. Where the bindings come first in their loops,
the visits go through the table. -/
theorem parse_visits (source : List Char) (t : Concrete) (sound : t.hasFault = false) :
    ∃ o, parse source t = .ok o ∧
      (∀ interest, o.Tours interest (o.visitsWhere interest)) ∧
      (∀ (σ : Type) (v : Visitor σ) (s : σ),
        ((Walk.step o v)^[o.size] (Walk.start s)).pending = [] ∧
        ((Walk.step o v)^[o.size] (Walk.start s)).state = o.visits.foldl (v.meet o) s ∧
        ∀ interest, (∀ s, v.interest s = interest) →
          ((Walk.step o v)^[o.size] (Walk.start s)).state =
            (o.visitsWhere interest).foldl v.visit s) ∧
      (t.bindingsFirst → o.visits.map Visit.node = o.ids ∧ ∀ interest,
        (o.visitsWhere interest).map Visit.node = o.ids.filter fun id => interest (o.kind id)) := by
  obtain ⟨_, entered, _⟩ := ofConcrete_entered source t
  have linked := entered.linked
  refine ⟨_, parse_eq_ok sound, visitsWhere_tours linked, ?_, ?_⟩
  · intro σ v s
    obtain ⟨finished, state⟩ := Walk.run_start linked v s
    refine ⟨finished, state, fun interest steady => ?_⟩
    rw [state, Visitor.foldl_meet steady]
  · intro first
    have nested := ofConcrete_nested source t first
    refine ⟨?_, fun interest => ?_⟩
    · rw [nested.visits_eq linked, List.map_map]
      exact List.map_id _
    · rw [nested.visitsWhere_eq linked, List.map_map]
      exact List.map_id _

/-- A visitor that keeps the visits of `var` declarations. -/
def keepsDeclarations : Visitor (List Visit) where
  interest _ kind := kind = .declaration .var
  visit kept visit := kept ++ [visit]

/-- The sample has its binding first, so it is visited in the order of its table. Its two declarations
stand below the loop and below the export statement. -/
theorem parse_visits_sample :
    let o := ofConcrete sampleText sampleTree
    let declarations : List Visit := [⟨2, [1, 0]⟩, ⟨7, [6, 0]⟩]
    sampleTree.hasFault = false ∧ sampleTree.bindingsFirst ∧ parse sampleText sampleTree = .ok o ∧
      o.visits.map Visit.node = [0, 1, 2, 3, 4, 5, 6, 7, 8, 9] ∧
      o.visitsWhere (· = .declaration .var) = declarations ∧
      o.Tours (· = .declaration .var) declarations ∧
      ((Walk.step o keepsDeclarations)^[o.size] (Walk.start [])).state = declarations := by
  intro o declarations
  have first : sampleTree.bindingsFirst := by decide
  obtain ⟨_, parsed, tours, walks, inOrder⟩ := parse_visits sampleText sampleTree (by decide)
  obtain rfl : o = _ := Except.ok.inj parsed
  have met : o.visitsWhere (· = .declaration .var) = declarations := by decide +kernel
  refine ⟨by decide, first, parsed, ?_, met, met ▸ tours _, ?_⟩
  · rw [(inOrder first).1]
    decide +kernel
  · rw [(walks _ keepsDeclarations []).2.2 _ fun _ => rfl, met]
    rfl

end ScopeLint.Outline
