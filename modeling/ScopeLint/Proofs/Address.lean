import ScopeLint.Proofs.Plan

/-!
# Addresses in a concrete tree

A node of a concrete tree is named by the way to it from the root, as equal subtrees may stand at several
places. On addresses it can be said without a walk through the tree which nodes an outline keeps, which
one of them is the nearest above a given node, and which export statement wraps a declaration.

Addresses are compared as words are in a dictionary, which is the order of a pre-order walk.
-/

namespace ScopeLint

/-- The way to a node: the numbers of the children that lead to it from the root. -/
abbrev Address := List Nat

namespace Address

variable {a b c : Address} {number other : Nat}

/-- Whether a pre-order walk meets the first address before the second. -/
def Before (a b : Address) : Prop :=
  List.Lex (· < ·) a b

/-- Whether an address lies below a child of `a` whose number is at least `first`. -/
def From (a : Address) (first : Nat) (b : Address) : Prop :=
  ∃ number, first ≤ number ∧ a ++ [number] <+: b

theorem Before.of_append (a : Address) (h : Before b c) : Before (a ++ b) (a ++ c) := by
  induction a with
  | nil => exact h
  | cons _ _ ih => exact .cons ih

theorem Before.of_below (below : a ++ [number] <+: b) : Before a b := by
  obtain ⟨rest, rfl⟩ := below
  have h : Before [] ([number] ++ rest) := .nil
  simpa only [List.append_nil, List.append_assoc] using h.of_append a

theorem Before.of_branch (branch : number < other) (left : a ++ [number] <+: b)
    (right : a ++ [other] <+: c) : Before b c := by
  obtain ⟨before, rfl⟩ := left
  obtain ⟨after, rfl⟩ := right
  have h : Before ([number] ++ before) ([other] ++ after) := .rel branch
  simpa only [List.append_assoc] using h.of_append a

theorem Before.irrefl (a : Address) : ¬ Before a a := by
  induction a with
  | nil => exact fun h => nomatch h
  | cons number rest ih =>
      intro h
      cases h with
      | cons h => exact ih h
      | rel h => exact Nat.lt_irrefl _ h

theorem prefix_iff : a <+: b ↔ b = a ∨ From a 0 b := by
  constructor
  · rintro ⟨rest, rfl⟩
    cases rest with
    | nil => exact .inl (List.append_nil a)
    | cons number rest => exact .inr ⟨number, Nat.zero_le _, rest, by simp⟩
  · rintro (rfl | ⟨number, _, below⟩)
    · exact List.prefix_refl _
    · exact (List.prefix_append a [number]).trans below

theorem from_iff {first : Nat} : From a first b ↔ a ++ [first] <+: b ∨ From a (first + 1) b := by
  constructor
  · rintro ⟨number, bound, below⟩
    rcases Nat.eq_or_lt_of_le bound with rfl | later
    · exact .inl below
    · exact .inr ⟨number, later, below⟩
  · rintro (below | ⟨number, bound, below⟩)
    · exact ⟨first, Nat.le_refl _, below⟩
    · exact ⟨number, Nat.le_of_succ_le bound, below⟩

/-- A proper prefix of an address is a prefix of what the address extends by one number. -/
theorem prefix_of_concat (above : b <+: a ++ [number]) (proper : b ≠ a ++ [number]) : b <+: a := by
  rcases List.prefix_concat_iff.mp above with same | above
  · exact absurd same proper
  · exact above

theorem concat_ne_self : a ≠ a ++ [number] := by
  intro h
  simpa using congrArg List.length h

end Address

namespace Concrete

/-- The node at an address. -/
def at? (t : Concrete) : Address → Option Concrete
  | [] => some t
  | number :: rest => t.children[number]?.bind fun child => child.at? rest

variable {t n : Concrete} {a b c : Address} {number : Nat}

theorem at?_cons {child : Concrete} (found : t.children[number]? = some child) (b : Address) :
    t.at? (number :: b) = child.at? b := by
  rw [at?, found, Option.bind_some]

theorem at?_append (t : Concrete) (a b : Address) :
    t.at? (a ++ b) = (t.at? a).bind (·.at? b) := by
  induction a generalizing t with
  | nil => rfl
  | cons number rest ih =>
      rw [List.cons_append, at?, at?]
      cases t.children[number]? with
      | none => rfl
      | some child => exact ih child

theorem at?_concat (found : t.at? a = some n) (number : Nat) :
    t.at? (a ++ [number]) = n.children[number]? := by
  rw [at?_append, found, Option.bind_some, at?]
  cases n.children[number]? <;> rfl

/-- Whether the way to an address goes through named nodes that are no comments; the root does not
count. -/
def Reached (t : Concrete) (a : Address) : Prop :=
  ∀ b, b ≠ [] → b <+: a → ∃ n, t.at? b = some n ∧ n.isNamed ∧ isComment n.kind = false

/-- Whether the outline keeps the node at an address: it is the root, or it is reached and does not
stand aside. -/
def Kept (t : Concrete) (a : Address) : Prop :=
  a = [] ∨ t.Reached a ∧ ∃ n, t.at? a = some n ∧ n.standsAside = false

/-- Whether `b` is the nearest kept address above `a`. -/
structure NearestKept (t : Concrete) (a b : Address) : Prop where
  kept : t.Kept b
  above : b <+: a
  proper : b ≠ a
  nearest : ∀ c, t.Kept c → c <+: a → c ≠ a → c <+: b

/-- Whether the loop at an address is kept and declares its variable, by the given keyword and
binding. -/
structure Headed (t : Concrete) (a : Address) (keyword left : Concrete) : Prop where
  kept : t.Kept a
  below : a ≠ []
  loop : ∃ n, t.at? a = some n ∧ n.loopHeader? = some (keyword, left)

/-- Whether `a` lies at or below the binding in the header of the loop at `b`. -/
def InHeader (t : Concrete) (b a : Address) : Prop :=
  ∃ n keyword left number, t.Headed b keyword left ∧ t.at? b = some n ∧
    n.children.findIdx? (fills "left") = some number ∧ b ++ [number] <+: a

/-- Whether the export statement at `b` wraps the declaration at `a`: the node in its `declaration`
field, or the declaration that a `declare` statement in this field is about. -/
inductive Wraps (t : Concrete) (b : Address) : Address → Prop
  | field {n : Concrete} {number : Nat} (found : t.at? b = some n) (below : b ≠ [])
      (exported : n.kind = "export_statement")
      (declaration : n.children.findIdx? (fills "declaration") = some number) :
      Wraps t b (b ++ [number])
  | declared {n d : Concrete} {number first : Nat} (found : t.at? b = some n) (below : b ≠ [])
      (exported : n.kind = "export_statement")
      (declaration : n.children.findIdx? (fills "declaration") = some number)
      (ambient : t.at? (b ++ [number]) = some d) (wraps : d.wrapsDeclaration)
      (inner : d.children.findIdx? isNamed = some first) :
      Wraps t b (b ++ [number] ++ [first])

theorem reached_root (t : Concrete) : t.Reached [] := by
  intro b below above
  exact absurd (List.prefix_nil.mp above) below

theorem Reached.concat (reached : t.Reached a) (found : t.at? (a ++ [number]) = some n)
    (named : n.isNamed) (visible : isComment n.kind = false) : t.Reached (a ++ [number]) := by
  intro b below above
  rcases List.prefix_concat_iff.mp above with rfl | above
  · exact ⟨n, found, named, visible⟩
  · exact reached b below above

theorem Kept.reached (kept : t.Kept a) : t.Reached a := by
  rcases kept with rfl | ⟨reached, _⟩
  · exact reached_root t
  · exact reached

theorem kept_iff (below : a ≠ []) (found : t.at? a = some n) :
    t.Kept a ↔ t.Reached a ∧ n.standsAside = false := by
  constructor
  · rintro (rfl | ⟨reached, m, other, stays⟩)
    · exact absurd rfl below
    · rw [found] at other
      cases other
      exact ⟨reached, stays⟩
  · rintro ⟨reached, stays⟩
    exact .inr ⟨reached, n, found, stays⟩

theorem not_kept_of_standsAside (below : a ≠ []) (found : t.at? a = some n) (aside : n.standsAside) :
    ¬ t.Kept a := by
  rw [kept_iff below found, aside]
  exact fun h => nomatch h.2

theorem not_headed (found : t.at? a = some n) (bare : n.loopHeader? = none) (keyword left : Concrete) :
    ¬ t.Headed a keyword left := by
  rintro ⟨_, _, m, same, header⟩
  cases found.symm.trans same
  rw [bare] at header
  cases header

/-- Nothing is kept at or below a comment, a plain token, or an address without a node. -/
theorem not_kept_below (below : a ≠ [])
    (hidden : ∀ n, t.at? a = some n → n.isNamed → isComment n.kind) (above : a <+: b) :
    ¬ t.Kept b := by
  intro kept
  obtain ⟨n, found, named, visible⟩ := kept.reached a below above
  rw [hidden n found named] at visible
  cases visible

theorem nearestKept_concat (kept : t.Kept a) (number : Nat) : t.NearestKept (a ++ [number]) a where
  kept := kept
  above := List.prefix_append a [number]
  proper := Address.concat_ne_self
  nearest := fun _ _ above proper => Address.prefix_of_concat above proper

theorem NearestKept.concat (h : t.NearestKept a b) (aside : ¬ t.Kept a) (number : Nat) :
    t.NearestKept (a ++ [number]) b where
  kept := h.kept
  above := h.above.trans (List.prefix_append a [number])
  proper := by
    intro same
    have shorter := h.above.length_le
    rw [same, List.length_append, List.length_singleton] at shorter
    omega
  nearest := by
    intro c kept above proper
    have inside : c <+: a := Address.prefix_of_concat above proper
    refine h.nearest c kept inside ?_
    rintro rfl
    exact aside kept

/-- A step further down stays on the same side of a header further up. -/
theorem inHeader_concat_iff (above : b <+: a) (proper : b ≠ a) (number : Nat) :
    t.InHeader b (a ++ [number]) ↔ t.InHeader b a := by
  have shorter : b.length < a.length := by
    refine Nat.lt_of_le_of_ne above.length_le fun same => proper (above.eq_of_length same)
  constructor
  · rintro ⟨n, keyword, left, place, headed, found, index, below⟩
    refine ⟨n, keyword, left, place, headed, found, index, ?_⟩
    refine List.prefix_of_prefix_length_le below (List.prefix_append a [number]) ?_
    rw [List.length_append, List.length_singleton]
    exact shorter
  · rintro ⟨n, keyword, left, place, headed, found, index, below⟩
    exact ⟨n, keyword, left, place, headed, found, index,
      below.trans (List.prefix_append a [number])⟩

end Concrete

/-- Where a node of an outline comes from: a node of the tree, or the header of a loop. -/
inductive Origin where
  | node (address : Address)
  | header (loop : Address)
  deriving DecidableEq, Repr

/-- The address of a node that is in the tree itself. -/
def Origin.node? : Origin → Option Address
  | node address => some address
  | header _ => none

/-- Below what the node at an address belongs: below the nearest kept node, or below the declaration
in its header. -/
inductive Concrete.Owner (t : Concrete) (a : Address) : Origin → Prop
  | node {b : Address} (nearest : t.NearestKept a b) (outside : ¬ t.InHeader b a) : Owner t a (.node b)
  | header {b : Address} (nearest : t.NearestKept a b) (inside : t.InHeader b a) :
      Owner t a (.header b)

namespace Concrete

variable {t n : Concrete} {a b : Address} {r : Origin} {number : Nat}

/-- What stands below a node that steps aside belongs where the node itself would. -/
theorem Owner.concat (h : t.Owner a r) (aside : ¬ t.Kept a) (number : Nat) :
    t.Owner (a ++ [number]) r := by
  cases h with
  | node nearest outside =>
      refine .node (nearest.concat aside number) fun inside => outside ?_
      exact (inHeader_concat_iff nearest.above nearest.proper number).mp inside
  | header nearest inside =>
      refine .header (nearest.concat aside number) ?_
      exact (inHeader_concat_iff nearest.above nearest.proper number).mpr inside

theorem owner_of_bare (kept : t.Kept a) (bare : ∀ keyword left, ¬ t.Headed a keyword left)
    (number : Nat) : t.Owner (a ++ [number]) (.node a) := by
  refine .node (nearestKept_concat kept number) ?_
  rintro ⟨n, keyword, left, _, headed, _⟩
  exact bare keyword left headed

/-- Of the children of a loop with a header, the binding goes below the header and the others below
the loop. -/
theorem owner_of_headed {keyword left : Concrete} (headed : t.Headed a keyword left)
    (found : t.at? a = some n) (number : Nat) :
    t.Owner (a ++ [number])
      (if n.children.findIdx? (fills "left") = some number then .header a else .node a) := by
  have nearest := nearestKept_concat headed.kept number
  split
  · refine .header nearest ⟨n, keyword, left, number, headed, found, ‹_›, List.prefix_refl _⟩
  · rename_i other
    refine .node nearest ?_
    rintro ⟨m, _, _, place, _, same, index, below⟩
    rw [found] at same
    cases same
    have last : [place] <+: [number] := (List.prefix_append_right_inj a).mp below
    obtain rfl : place = number := by simpa using last
    exact other index

end Concrete

end ScopeLint
