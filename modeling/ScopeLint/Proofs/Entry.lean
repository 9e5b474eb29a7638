import ScopeLint.Syntax.Outlining

/-!
# Entering one node

Outlining changes an outline in one way only: it enters a node in a slot. `record` is that change, and
the lemmas here say what each query sees after it. A node keeps its kind, name, span and parent for
good; its parent gains a last child, and a payload when the slot asks for one.

An index outside the table has no links, so that most queries need no bound on the index they ask for.
-/

namespace ScopeLint.Outline

/-- The grammar's name for a node. -/
def origin (o : Outline) (id : Nat) : String :=
  match o.node? id with
  | some node => node.origin
  | none => ""

/-- A node that is to be entered, with its slot. -/
structure Entry where
  kind : Kind
  origin : String
  span : Span
  slot : Slot
  deriving DecidableEq, Repr

/-- Enter one node; its index is the size of the outline before. -/
def record (o : Outline) (e : Entry) : Outline :=
  let pushed := o.push e.kind e.origin e.span e.slot.parent
  if e.slot.isPayload then pushed.setPayload e.slot.parent o.size else pushed

variable {o : Outline} {e : Entry} {id : Nat}

@[simp] theorem size_record (o : Outline) (e : Entry) : (o.record e).size = o.size + 1 := by
  unfold record
  split <;> simp

theorem node?_push (o : Outline) (kind : Kind) (origin : String) (span : Span) (parent id : Nat) :
    (o.push kind origin span parent).node? id =
      let found := if id = o.size then some { kind, origin, span, parent := some parent }
        else o.node? id
      if id = parent then found.map fun node => { node with children := node.children.push o.size }
      else found := by
  simp only [node?, push, Array.getElem?_modify, Array.getElem?_push]
  by_cases same : id = parent
  · simp only [same, if_true]
    rfl
  · simp only [same, Ne.symm same, if_false]
    rfl

theorem node?_setPayload (o : Outline) (parent payload id : Nat) :
    (o.setPayload parent payload).node? id =
      if id = parent then (o.node? id).map fun node => { node with payload := some payload }
      else o.node? id := by
  simp only [node?, setPayload, Array.getElem?_modify]
  by_cases same : id = parent
  · simp only [same, if_true]
  · simp only [same, Ne.symm same, if_false]

theorem exists_node? (inside : id < o.size) : ∃ node, o.node? id = some node :=
  ⟨o.nodes[id], Array.getElem?_eq_getElem inside⟩

theorem node?_eq_none (outside : o.size ≤ id) : o.node? id = none := by
  simpa [node?, size] using outside

/-- The node at an index after an entry: the new node, its parent, or a node as it was. -/
theorem node?_record (bound : e.slot.parent < o.size) (id : Nat) :
    (o.record e).node? id =
      if id = o.size then
        some { kind := e.kind, origin := e.origin, span := e.span, parent := some e.slot.parent }
      else if id = e.slot.parent then
        (o.node? id).map fun node =>
          { node with
            children := node.children.push o.size
            payload := if e.slot.isPayload then some o.size else node.payload }
      else o.node? id := by
  have apart : o.size ≠ e.slot.parent := Nat.ne_of_gt bound
  unfold record
  by_cases new : id = o.size
  · subst new
    cases e.slot.isPayload <;> simp [node?_push, node?_setPayload, apart]
  · by_cases above : id = e.slot.parent
    · cases flag : e.slot.isPayload <;>
        simp [node?_push, node?_setPayload, above, Function.comp_def, apart.symm]
    · cases e.slot.isPayload <;> simp [node?_push, node?_setPayload, new, above]

/-- A query of a part that links do not touch sees the new node, and every other one as it was. -/
theorem read_record {α : Type} (read : OutlineNode → α) (missing : α)
    (fixed : ∀ node children payload, read { node with children, payload } = read node)
    (bound : e.slot.parent < o.size) (id : Nat) :
    (((o.record e).node? id).map read).getD missing =
      if id = o.size then
        read { kind := e.kind, origin := e.origin, span := e.span, parent := some e.slot.parent }
      else ((o.node? id).map read).getD missing := by
  rw [node?_record bound]
  by_cases new : id = o.size
  · simp only [if_pos new, Option.map_some, Option.getD_some]
  · rw [if_neg new, if_neg new]
    by_cases above : id = e.slot.parent
    · simp only [if_pos above, Option.map_map, Function.comp_def, fixed]
    · rw [if_neg above]

theorem kind_eq_getD (o : Outline) (id : Nat) :
    o.kind id = ((o.node? id).map (·.kind)).getD .other := by
  unfold kind
  cases o.node? id <;> rfl

theorem origin_eq_getD (o : Outline) (id : Nat) :
    o.origin id = ((o.node? id).map (·.origin)).getD "" := by
  unfold origin
  cases o.node? id <;> rfl

theorem span_eq_getD (o : Outline) (id : Nat) :
    o.span id = ((o.node? id).map (·.span)).getD ⟨0, 0, 0, 0⟩ := by
  unfold span
  cases o.node? id <;> rfl

theorem parent?_eq_getD (o : Outline) (id : Nat) :
    o.parent? id = ((o.node? id).map (·.parent)).getD none := by
  unfold parent?
  cases o.node? id <;> rfl

theorem kind_record (bound : e.slot.parent < o.size) (id : Nat) :
    (o.record e).kind id = if id = o.size then e.kind else o.kind id := by
  simp only [kind_eq_getD]
  exact read_record (·.kind) _ (fun _ _ _ => rfl) bound id

theorem origin_record (bound : e.slot.parent < o.size) (id : Nat) :
    (o.record e).origin id = if id = o.size then e.origin else o.origin id := by
  simp only [origin_eq_getD]
  exact read_record (·.origin) _ (fun _ _ _ => rfl) bound id

theorem span_record (bound : e.slot.parent < o.size) (id : Nat) :
    (o.record e).span id = if id = o.size then e.span else o.span id := by
  simp only [span_eq_getD]
  exact read_record (·.span) _ (fun _ _ _ => rfl) bound id

theorem parent?_record (bound : e.slot.parent < o.size) (id : Nat) :
    (o.record e).parent? id = if id = o.size then some e.slot.parent else o.parent? id := by
  simp only [parent?_eq_getD]
  exact read_record (·.parent) _ (fun _ _ _ => rfl) bound id

theorem children_eq_nil (outside : o.size ≤ id) : o.children id = [] := by
  simp [children, node?_eq_none outside]

theorem payload?_eq_none (outside : o.size ≤ id) : o.payload? id = none := by
  simp [payload?, node?_eq_none outside]

theorem parent?_eq_none (outside : o.size ≤ id) : o.parent? id = none := by
  simp [parent?, node?_eq_none outside]

/-- The new node becomes the last child of its parent. -/
theorem children_record (bound : e.slot.parent < o.size) (id : Nat) :
    (o.record e).children id =
      if id = e.slot.parent then o.children id ++ [o.size] else o.children id := by
  by_cases new : id = o.size
  · have apart : id ≠ e.slot.parent := by omega
    rw [if_neg apart, children_eq_nil (Nat.le_of_eq new.symm), children, node?_record bound,
      if_pos new]
  · by_cases above : id = e.slot.parent
    · obtain ⟨node, found⟩ := exists_node? (above ▸ bound)
      simp only [children, node?_record bound, if_neg new, if_pos above, found, Option.map_some,
        Array.toList_push]
    · simp only [children, node?_record bound, if_neg new, if_neg above]

/-- A slot for a payload makes the new node the payload of its parent. -/
theorem payload?_record (bound : e.slot.parent < o.size) (id : Nat) :
    (o.record e).payload? id =
      if id = e.slot.parent ∧ e.slot.isPayload then some o.size else o.payload? id := by
  by_cases new : id = o.size
  · have apart : id ≠ e.slot.parent := by omega
    rw [if_neg (fun h => apart h.1), payload?_eq_none (Nat.le_of_eq new.symm), payload?,
      node?_record bound, if_pos new, Option.bind_some]
  · by_cases above : id = e.slot.parent
    · obtain ⟨node, found⟩ := exists_node? (above ▸ bound)
      rw [payload?, node?_record bound, if_neg new, if_pos above, payload?, found, Option.map_some,
        Option.bind_some, Option.bind_some]
      simp only [above, true_and]
    · simp only [payload?, node?_record bound, if_neg new, above, false_and, if_false]

end ScopeLint.Outline
