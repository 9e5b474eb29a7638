import ScopeLint.Proofs.Links

/-!
# The visits of an outline

A node lies below another one when the way up from it leads there. Visiting a node goes through the
nodes below it, which are those below its children, so that `visits` meets every node of an outline with
linked nodes. The lineage that is built up on the way down is the one that the parent links give.
-/

namespace ScopeLint.Outline

variable {o : Outline} {id parent child x : Nat}

theorem mem_upward_self (o : Outline) (id : Nat) : id ∈ o.upward id :=
  List.mem_cons_self

theorem mem_upward_of_parent? (h : o.Linked) (link : o.parent? child = some parent) :
    parent ∈ o.upward child := by
  rw [upward_of_parent? h link]
  exact List.mem_cons_of_mem _ (mem_upward_self o parent)

theorem Linked.children_bounds (h : o.Linked) (member : child ∈ o.children id) :
    id < child ∧ child < o.size := by
  have link := (h.mem_children id child).mp member
  exact ⟨h.parent_lt link, lt_size_of_parent? link⟩

/-- What passes from the children of a node to the node holds of every node. -/
theorem Linked.descend (h : o.Linked) {P : Nat → Prop}
    (step : ∀ id, (∀ child ∈ o.children id, P child) → P id) (id : Nat) : P id := by
  refine step id fun child member => ?_
  have bounds := h.children_bounds member
  exact h.descend step child
termination_by o.size - id

/-- The nodes at or below a node are itself and those at or below its children. -/
theorem mem_upward_iff (h : o.Linked) (inside : x < o.size) :
    id ∈ o.upward x ↔ x = id ∨ ∃ child ∈ o.children id, child ∈ o.upward x := by
  constructor
  · refine h.climb (P := fun x => id ∈ o.upward x →
      x = id ∨ ∃ child ∈ o.children id, child ∈ o.upward x) ?_ ?_ x inside
    · intro member
      rw [upward_root h, List.mem_singleton] at member
      exact .inl member.symm
    · intro x parent link _ _ ih member
      rw [upward_of_parent? h link] at member ⊢
      rcases List.mem_cons.mp member with rfl | above
      · exact .inl rfl
      · rcases ih above with rfl | ⟨child, below, way⟩
        · exact .inr ⟨x, (h.mem_children _ _).mpr link, List.mem_cons_self⟩
        · exact .inr ⟨child, below, List.mem_cons_of_mem _ way⟩
  · rintro (rfl | ⟨child, below, way⟩)
    · exact mem_upward_self o x
    · have link := (h.mem_children id child).mp below
      exact (upward_suffix h inside way).subset (mem_upward_of_parent? h link)

theorem root_mem_upward (h : o.Linked) (inside : id < o.size) : root ∈ o.upward id :=
  List.mem_of_getLast? (upward_getLast? h inside)

/-- Children lie within the bounds that visiting checks. -/
theorem visitsFrom_eq (h : o.Linked) (id : Nat) (path : Lineage) :
    o.visitsFrom id path =
      ⟨id, path⟩ :: (o.children id).flatMap fun child => o.visitsFrom child (id :: path) := by
  rw [visitsFrom]
  congr 1
  refine List.flatMap_congr fun child member => ?_
  exact dif_pos (h.children_bounds member)

/-- Visiting a node meets the nodes at or below it, each with its lineage. -/
theorem mem_visitsFrom (h : o.Linked) (inside : id < o.size) {visit : Visit} :
    visit ∈ o.visitsFrom id (o.lineage id) ↔
      visit.node < o.size ∧ id ∈ o.upward visit.node ∧ visit.lineage = o.lineage visit.node := by
  obtain ⟨x, path⟩ := visit
  induction id using h.descend with
  | step id ih =>
      have below : ∀ child ∈ o.children id, (⟨x, path⟩ ∈ o.visitsFrom child (id :: o.lineage id) ↔
          x < o.size ∧ child ∈ o.upward x ∧ path = o.lineage x) := by
        intro child member
        have onward := ih child member (h.children_bounds member).2
        rwa [lineage_of_parent? h ((h.mem_children _ _).mp member)] at onward
      rw [visitsFrom_eq h, List.mem_cons, List.mem_flatMap, Visit.mk.injEq]
      constructor
      · rintro (⟨rfl, rfl⟩ | ⟨child, member, met⟩)
        · exact ⟨inside, mem_upward_self o x, rfl⟩
        · obtain ⟨bound, way, same⟩ := (below child member).mp met
          exact ⟨bound, (mem_upward_iff h bound).mpr (.inr ⟨child, member, way⟩), same⟩
      · rintro ⟨bound, way, same⟩
        rcases (mem_upward_iff h bound).mp way with rfl | ⟨child, member, onward⟩
        · exact .inl ⟨rfl, same⟩
        · exact .inr ⟨child, member, (below child member).mpr ⟨bound, onward, same⟩⟩

theorem mem_visits (h : o.Linked) {visit : Visit} :
    visit ∈ o.visits ↔ visit.node < o.size ∧ visit.lineage = o.lineage visit.node := by
  have start : root < o.size := h.inhabited
  rw [visits, ← lineage_root h, mem_visitsFrom h start]
  refine and_congr_right fun bound => ?_
  exact and_iff_right (root_mem_upward h bound)

/-- Every node is visited. -/
theorem mem_map_visits (h : o.Linked) : id ∈ o.visits.map Visit.node ↔ id < o.size := by
  rw [List.mem_map]
  constructor
  · rintro ⟨visit, met, rfl⟩
    exact ((mem_visits h).mp met).1
  · intro inside
    exact ⟨⟨id, o.lineage id⟩, (mem_visits h).mpr ⟨inside, rfl⟩, rfl⟩

/-- The order of the visits, from what is known of a node and one below it, and of nodes below two
children of one node. -/
theorem visitsFrom_pairwise (h : o.Linked) {R : Nat → Nat → Prop}
    (below : ∀ id x, x < o.size → id ∈ o.lineage x → R id x)
    (beside : ∀ {parent left right}, o.parent? left = some parent → o.parent? right = some parent →
      left < right → ∀ x y, x < o.size → y < o.size → left ∈ o.upward x → right ∈ o.upward y → R x y)
    (inside : id < o.size) :
    (o.visitsFrom id (o.lineage id)).Pairwise fun first later => R first.node later.node := by
  induction id using h.descend with
  | step id ih =>
      -- the children start from the lineage that their own links give
      have onward : ∀ child ∈ o.children id,
          o.visitsFrom child (id :: o.lineage id) = o.visitsFrom child (o.lineage child) := by
        intro child member
        rw [lineage_of_parent? h ((h.mem_children _ _).mp member)]
        rfl
      rw [visitsFrom_eq h, List.flatMap_congr onward]
      refine List.pairwise_cons.mpr ⟨?_, List.pairwise_flatMap.mpr ⟨?_, ?_⟩⟩
      · intro visit met
        obtain ⟨child, member, met⟩ := List.mem_flatMap.mp met
        obtain ⟨bound, way, _⟩ := (mem_visitsFrom h (h.children_bounds member).2).mp met
        refine below id visit.node bound ?_
        have apart : id ≠ visit.node :=
          Nat.ne_of_lt (Nat.lt_of_lt_of_le (h.children_bounds member).1 (le_of_mem_upward h bound way))
        have above := (mem_upward_iff h bound).mpr (.inr ⟨child, member, way⟩)
        exact (List.mem_cons.mp above).resolve_left apart
      · intro child member
        exact ih child member (h.children_bounds member).2
      · refine (h.ascending id).imp_of_mem fun isLeft isRight less first met later met' => ?_
        obtain ⟨bound, way, _⟩ := (mem_visitsFrom h (h.children_bounds isLeft).2).mp met
        obtain ⟨bound', way', _⟩ := (mem_visitsFrom h (h.children_bounds isRight).2).mp met'
        exact beside ((h.mem_children _ _).mp isLeft) ((h.mem_children _ _).mp isRight) less
          first.node later.node bound bound' way way'

end ScopeLint.Outline
