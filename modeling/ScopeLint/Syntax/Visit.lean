import ScopeLint.Syntax.Outline

/-!
# Visiting an outline

The lineage of a node is the list of the nodes above it, the nearest first. `visits` goes through an
outline in pre-order and keeps the lineage of the node at hand; `lineage` finds the same list from
the parent links.
-/

namespace ScopeLint

/-- The nodes above a node, the nearest first. -/
abbrev Lineage := List Nat

namespace Lineage

def parent? (path : Lineage) : Option Nat :=
  path.head?

def grandparent? (path : Lineage) : Option Nat :=
  path.tail.head?

/-- The lineage from the root down. -/
def fromRoot (path : Lineage) : List Nat :=
  path.reverse

/-- The lineage without its `n` outermost nodes. -/
def dropOutermost (path : Lineage) (n : Nat) : Lineage :=
  path.take (path.length - n)

end Lineage

namespace Outline

/-- The lineage of a node by its parent links, which lead to smaller indices. -/
def lineage (o : Outline) (id : Nat) : Lineage :=
  match o.parent? id with
  | none => []
  | some parent => if parent < id then parent :: o.lineage parent else []
termination_by id

/-- A node met on the way through an outline, with its lineage. -/
structure Visit where
  node : Nat
  lineage : Lineage
  deriving DecidableEq, Repr

/-- The visits of a node and everything below it, in pre-order. Children have larger indices than
their parent. -/
def visitsFrom (o : Outline) (id : Nat) (path : Lineage) : List Visit :=
  ⟨id, path⟩ :: (o.children id).flatMap fun child =>
    if _h : id < child ∧ child < o.size then o.visitsFrom child (id :: path) else []
termination_by o.size - id
decreasing_by omega

/-- The visits of all nodes, in pre-order. -/
def visits (o : Outline) : List Visit :=
  o.visitsFrom root []

/-- The visits of the nodes whose kind is of interest. -/
def visitsWhere (o : Outline) (interest : Kind → Bool) : List Visit :=
  o.visits.filter fun visit => interest (o.kind visit.node)

end Outline

end ScopeLint
