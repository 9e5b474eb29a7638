import Mathlib.Data.List.Chain
import ScopeLint.Proofs.Entry
import ScopeLint.Syntax.Visit

/-!
# The links of an outline

Parents, children and payloads are stored apart and filled one entry at a time. `Linked` says that they
agree: every node but the root has a smaller parent, the children of a node are in ascending order the
nodes whose parent it is, and the payload of a node is a child of it. An entry in an open slot keeps
this up, and what the parent links alone tell about lineages follows from it.
-/

namespace ScopeLint.Outline

variable {o : Outline} {e : Entry} {id parent child : Nat}

/-- Whether the links of an outline agree with each other. -/
structure Linked (o : Outline) : Prop where
  inhabited : 0 < o.size
  root_kind : o.kind root = .program
  root_parent : o.parent? root = none
  parent_smaller : ∀ id, id ≠ root → id < o.size → ∃ parent, o.parent? id = some parent ∧ parent < id
  mem_children : ∀ parent child, child ∈ o.children parent ↔ o.parent? child = some parent
  ascending : ∀ parent, (o.children parent).Pairwise (· < ·)
  payload_child : ∀ id payload, o.payload? id = some payload →
    o.kind id = .exported ∧ payload ∈ o.children id

/-- Whether a node may be entered in a slot: its parent is there, and it is an export statement when
the node is to be its payload. -/
structure Slot.Open (slot : Slot) (o : Outline) : Prop where
  bound : slot.parent < o.size
  exported : slot.isPayload → o.kind slot.parent = .exported

@[simp] theorem children_ofRoot (origin : String) (span : Span) (id : Nat) :
    (ofRoot origin span).children id = [] := by
  cases id <;> rfl

@[simp] theorem parent?_ofRoot (origin : String) (span : Span) (id : Nat) :
    (ofRoot origin span).parent? id = none := by
  cases id <;> rfl

@[simp] theorem payload?_ofRoot (origin : String) (span : Span) (id : Nat) :
    (ofRoot origin span).payload? id = none := by
  cases id <;> rfl

theorem lt_size_of_parent? (link : o.parent? child = some parent) : child < o.size := by
  by_cases inside : child < o.size
  · exact inside
  · rw [parent?_eq_none (Nat.le_of_not_lt inside)] at link
    cases link

theorem lt_size_of_kind {id : Nat} (known : o.kind id ≠ .other) : id < o.size := by
  by_contra outside
  apply known
  rw [kind, node?_eq_none (Nat.le_of_not_lt outside)]

namespace Linked

theorem parent_lt (h : o.Linked) (link : o.parent? child = some parent) : parent < child := by
  by_cases isRoot : child = root
  · rw [isRoot, h.root_parent] at link
    cases link
  · obtain ⟨other, found, smaller⟩ := h.parent_smaller child isRoot (lt_size_of_parent? link)
    rw [link] at found
    cases found
    exact smaller

theorem ofRoot (origin : String) (span : Span) : (ofRoot origin span).Linked where
  inhabited := Nat.zero_lt_one
  root_kind := rfl
  root_parent := rfl
  parent_smaller := by
    intro id other inside
    exact absurd (Nat.lt_one_iff.mp inside) other
  mem_children := by
    intro parent child
    rw [children_ofRoot, parent?_ofRoot]
    simp
  ascending := by
    intro parent
    rw [children_ofRoot]
    exact .nil
  payload_child := by
    intro id payload found
    rw [payload?_ofRoot] at found
    cases found

/-- Entering a node in an open slot keeps the links in agreement. -/
theorem record (h : o.Linked) (slot : e.slot.Open o) : (o.record e).Linked where
  inhabited := by simp
  root_kind := by
    have apart : root ≠ o.size := Nat.ne_of_lt h.inhabited
    rw [kind_record slot.bound, if_neg apart]
    exact h.root_kind
  root_parent := by
    have apart : root ≠ o.size := Nat.ne_of_lt h.inhabited
    rw [parent?_record slot.bound, if_neg apart]
    exact h.root_parent
  parent_smaller := by
    intro id other inside
    rw [size_record] at inside
    rw [parent?_record slot.bound]
    by_cases new : id = o.size
    · exact ⟨e.slot.parent, if_pos new, new ▸ slot.bound⟩
    · rw [if_neg new]
      exact h.parent_smaller id other (by omega)
  mem_children := by
    intro parent child
    rw [children_record slot.bound, parent?_record slot.bound]
    by_cases new : child = o.size
    · -- the new node is nobody's child so far
      have fresh : o.size ∉ o.children parent := by
        rw [h.mem_children, parent?_eq_none (Nat.le_refl _)]
        exact nofun
      rw [new, if_pos rfl]
      by_cases above : parent = e.slot.parent
      · simp [above]
      · simp [above, fresh, Ne.symm above]
    · rw [if_neg new, ← h.mem_children]
      by_cases above : parent = e.slot.parent
      · simp [above, new]
      · simp [above]
  ascending := by
    intro parent
    rw [children_record slot.bound]
    split
    · refine List.pairwise_append.mpr ⟨h.ascending parent, List.pairwise_singleton _ _, ?_⟩
      intro child member last isLast
      rw [List.mem_singleton.mp isLast]
      exact lt_size_of_parent? ((h.mem_children parent child).mp member)
    · exact h.ascending parent
  payload_child := by
    intro id payload found
    rw [payload?_record slot.bound] at found
    rw [kind_record slot.bound, children_record slot.bound]
    split at found
    · rename_i here
      obtain ⟨rfl, wanted⟩ := here
      cases found
      rw [if_neg (Nat.ne_of_lt slot.bound), if_pos rfl]
      exact ⟨slot.exported wanted, List.mem_append_right _ List.mem_cons_self⟩
    · obtain ⟨exported, member⟩ := h.payload_child id payload found
      have link := (h.mem_children id payload).mp member
      have inside : id < o.size := Nat.lt_trans (h.parent_lt link) (lt_size_of_parent? link)
      rw [if_neg (Nat.ne_of_lt inside)]
      refine ⟨exported, ?_⟩
      split
      · exact List.mem_append_left _ member
      · exact member

end Linked

/-- A node and the nodes above it, the nearest first. -/
def upward (o : Outline) (id : Nat) : List Nat :=
  id :: o.lineage id

theorem lineage_of_parent? (h : o.Linked) (link : o.parent? child = some parent) :
    o.lineage child = o.upward parent := by
  rw [lineage, link]
  exact if_pos (h.parent_lt link)

theorem lineage_root (h : o.Linked) : o.lineage root = [] := by
  rw [lineage, h.root_parent]

theorem upward_of_parent? (h : o.Linked) (link : o.parent? child = some parent) :
    o.upward child = child :: o.upward parent := by
  rw [upward, lineage_of_parent? h link]

theorem upward_root (h : o.Linked) : o.upward root = [root] := by
  rw [upward, lineage_root h]

/-- Going up the parent links from any node comes to the root. -/
theorem Linked.climb (h : o.Linked) {P : Nat → Prop} (atRoot : P root)
    (step : ∀ id parent, o.parent? id = some parent → parent < id → id < o.size → P parent → P id) :
    ∀ id, id < o.size → P id := by
  intro id
  induction id using Nat.strongRecOn with
  | ind id ih =>
      intro inside
      by_cases isRoot : id = root
      · exact isRoot ▸ atRoot
      · obtain ⟨parent, link, smaller⟩ := h.parent_smaller id isRoot inside
        exact step id parent link smaller inside (ih parent smaller (Nat.lt_trans smaller inside))

theorem upward_getLast? (h : o.Linked) (inside : id < o.size) :
    (o.upward id).getLast? = some root := by
  refine h.climb (P := fun id => (o.upward id).getLast? = some root) ?_ ?_ id inside
  · rw [upward_root h]
    rfl
  · intro id parent link _ _ ih
    rw [upward_of_parent? h link, List.getLast?_cons, ih]
    rfl

/-- Each node on the way up is followed by its parent. -/
theorem upward_isChain (h : o.Linked) (inside : id < o.size) :
    (o.upward id).IsChain fun below above => o.parent? below = some above := by
  refine h.climb (P := fun id => (o.upward id).IsChain _) ?_ ?_ id inside
  · rw [upward_root h]
    exact .singleton _
  · intro id parent link _ _ ih
    rw [upward_of_parent? h link]
    exact .cons_cons link ih

theorem upward_descending (h : o.Linked) (inside : id < o.size) :
    (o.upward id).Pairwise (· > ·) := by
  have links := upward_isChain h inside
  refine List.isChain_iff_pairwise.mp (links.imp fun _ _ link => ?_)
  exact h.parent_lt link

/-- The nodes above a node on the way up come next on the same way. -/
theorem upward_suffix (h : o.Linked) (inside : id < o.size) {x : Nat} (member : x ∈ o.upward id) :
    o.upward x <:+ o.upward id := by
  refine h.climb (P := fun id => x ∈ o.upward id → o.upward x <:+ o.upward id) ?_ ?_ id inside member
  · intro member
    rw [upward_root h, List.mem_singleton] at member
    exact member ▸ List.suffix_refl _
  · intro id parent link _ _ ih member
    by_cases same : x = id
    · exact same ▸ List.suffix_refl _
    · rw [upward_of_parent? h link] at member ⊢
      have above : x ∈ o.upward parent := by simpa [same] using member
      exact (ih above).trans (List.suffix_cons _ _)

theorem le_of_mem_upward (h : o.Linked) (inside : id < o.size) {x : Nat}
    (member : x ∈ o.upward id) : x ≤ id := by
  rcases List.mem_cons.mp member with same | above
  · exact Nat.le_of_eq same
  · exact Nat.le_of_lt (List.rel_of_pairwise_cons (upward_descending h inside) above)

/-- Whether an outline has the nodes of another one, under the same indices, kinds and parents. -/
structure Extends (o o' : Outline) : Prop where
  size : o.size ≤ o'.size
  kind : ∀ id, id < o.size → o'.kind id = o.kind id
  parent : ∀ id, id < o.size → o'.parent? id = o.parent? id

namespace Extends

variable {o' o'' : Outline}

theorem refl (o : Outline) : o.Extends o :=
  ⟨Nat.le_refl _, fun _ _ => rfl, fun _ _ => rfl⟩

theorem trans (first : o.Extends o') (second : o'.Extends o'') : o.Extends o'' where
  size := Nat.le_trans first.size second.size
  kind := by
    intro id inside
    rw [second.kind id (Nat.lt_of_lt_of_le inside first.size), first.kind id inside]
  parent := by
    intro id inside
    rw [second.parent id (Nat.lt_of_lt_of_le inside first.size), first.parent id inside]

theorem record (bound : e.slot.parent < o.size) : o.Extends (o.record e) where
  size := by simp
  kind := by
    intro id inside
    rw [kind_record bound, if_neg (Nat.ne_of_lt inside)]
  parent := by
    intro id inside
    rw [parent?_record bound, if_neg (Nat.ne_of_lt inside)]

theorem lineage (h : o.Extends o') (inside : id < o.size) : o'.lineage id = o.lineage id := by
  induction id using Nat.strongRecOn with
  | ind id ih =>
      rw [Outline.lineage, Outline.lineage, h.parent id inside]
      cases o.parent? id with
      | none => rfl
      | some parent =>
          dsimp only
          split
          · rename_i smaller
            rw [ih parent smaller (Nat.lt_trans smaller inside)]
          · rfl

/-- Later entries leave the way up from a node as it is. -/
theorem upward (h : o.Extends o') (inside : id < o.size) : o'.upward id = o.upward id := by
  rw [Outline.upward, Outline.upward, h.lineage inside]

end Extends

end ScopeLint.Outline
