import ScopeLint.Proofs.Entry

/-!
# Entering a node and its children

What becomes of a node is decided by the node alone: a comment is passed over, a node that stands aside
leaves its place to its children, and any other node is recorded, followed by the declaration of its
loop header when it has one. One equation for each case says so, with the plan that the children follow.

A plan singles out at most one child. `slotOf` tells the slot of every child by its number, so that the
children can be entered one after the other without a look at the plan.
-/

namespace ScopeLint

namespace Concrete

/-- A property holds of all trees if it passes from the children of a node to the node. -/
@[elab_as_elim, induction_eliminator]
theorem induction {P : Concrete → Prop}
    (node : ∀ label children, (∀ child ∈ children, P child) → P (.node label children)) (t : Concrete) :
    P t :=
  match t with
  | .node label children => node label children fun child _ => induction node child

/-- Whether the children of the node take its place in the outline. -/
def standsAside (t : Concrete) : Bool :=
  t.kind = "parenthesized_expression" || t.wrapsDeclaration

/-- The keyword and the binding of a `for`-`in` or `for`-`of` loop that declares its variable. -/
def loopHeader? (t : Concrete) : Option (Concrete × Concrete) :=
  if t.kind = "for_in_statement" then t.header? else none

/-- Whether the node is neither a token nor a comment. -/
def isVisible (t : Concrete) : Bool :=
  t.isNamed && !isComment t.kind

variable {source : List Char} {within : String} {t : Concrete}

theorem isVisible_iff : t.isVisible ↔ t.isNamed ∧ isComment t.kind = false := by
  simp [isVisible]

theorem kind_of_loopHeader? {header : Concrete × Concrete} (found : t.loopHeader? = some header) :
    t.kind = "for_in_statement" := by
  unfold loopHeader? at found
  split at found
  · assumption
  · cases found

theorem header?_of_loopHeader? {header : Concrete × Concrete} (found : t.loopHeader? = some header) :
    t.header? = some header := by
  rwa [loopHeader?, if_pos (kind_of_loopHeader? found)] at found

theorem find?_of_findIdx? {ts : List Concrete} {p : Concrete → Bool} {number : Nat}
    (first : ts.findIdx? p = some number) : ts.find? p = ts[number]? := by
  induction ts generalizing number with
  | nil => cases first
  | cons t ts ih =>
      rw [List.findIdx?_cons] at first
      by_cases here : p t
      · rw [if_pos here] at first
        cases first
        exact List.find?_cons_of_pos here
      · rw [if_neg here] at first
        obtain ⟨later, found, rfl⟩ := Option.map_eq_some_iff.mp first
        rw [List.find?_cons_of_neg here, ih found, List.getElem?_cons_succ]

theorem wrapsDeclaration_iff :
    t.wrapsDeclaration ↔ t.kind = "ambient_declaration" ∧ ∃ d, t.children.find? isNamed = some d ∧
      (d.kind = "variable_declaration" ∨ d.kind = "lexical_declaration") := by
  rw [wrapsDeclaration, namedChildren, List.head?_filter]
  cases t.children.find? isNamed <;> simp

theorem wrapsDeclaration_of_standsAside (aside : t.standsAside)
    (other : t.kind ≠ "parenthesized_expression") : t.wrapsDeclaration := by
  simpa [standsAside, other] using aside

/-- What a `declare` statement stands aside for is a declaration of variables. -/
theorem kind_of_wrapped {n : Concrete} {number : Nat} (wraps : t.wrapsDeclaration)
    (first : t.children.findIdx? isNamed = some number) (inner : t.children[number]? = some n) :
    n.kind = "variable_declaration" ∨ n.kind = "lexical_declaration" := by
  obtain ⟨_, d, found, declares⟩ := wrapsDeclaration_iff.mp wraps
  rw [find?_of_findIdx? first, inner] at found
  cases found
  exact declares

/-- A kind that one name alone stands for is found under that name only. -/
theorem name_of_lookup {name wanted : String} {kind : Kind}
    (sole : ∀ entry ∈ plainKinds, entry.2 = kind → entry.1 = wanted)
    (found : plainKinds.lookup name = some kind) : name = wanted := by
  obtain ⟨before, after, split, _⟩ := List.lookup_eq_some_iff.mp found
  have member : (name, kind) ∈ plainKinds := by
    rw [split]
    exact List.mem_append_right _ List.mem_cons_self
  exact sole _ member rfl

theorem outlineKind_eq_exported_iff :
    t.outlineKind source within = .exported ↔ t.kind = "export_statement" := by
  constructor
  · intro exported
    unfold outlineKind at exported
    split at exported
    · split at exported <;> cases exported
    · split at exported <;> cases exported
    · split at exported <;> cases exported
    · split at exported
      · split at exported <;> cases exported
      · cases exported
    · cases found : plainKinds.lookup t.kind with
      | none => simp only [found, Option.getD_none, reduceCtorEq] at exported
      | some kind =>
          rw [found, Option.getD_some] at exported
          subst exported
          exact name_of_lookup (by decide) found
  · intro name
    rw [outlineKind, name]
    rfl

/-- The loops over keys and over values are those of one name. -/
theorem exists_outlineKind_eq_loop_iff :
    (∃ form, form ≠ .counting ∧ t.outlineKind source within = .loop form) ↔
      t.kind = "for_in_statement" := by
  constructor
  · rintro ⟨form, other, loop⟩
    unfold outlineKind at loop
    split at loop
    · split at loop <;> cases loop
    · split at loop <;> cases loop
    · split at loop <;> cases loop
    · assumption
    · cases found : plainKinds.lookup t.kind with
      | none => simp only [found, Option.getD_none, reduceCtorEq] at loop
      | some kind =>
          rw [found, Option.getD_some] at loop
          subst loop
          cases form with
          | counting => exact absurd rfl other
          | overKeys => exact name_of_lookup (by decide) found
          | overValues => exact name_of_lookup (by decide) found
  · intro name
    cases found : t.child? "operator" with
    | none =>
        refine ⟨.overKeys, by decide, ?_⟩
        rw [outlineKind, name, found]
        rfl
    | some operator =>
        by_cases isOf : operator.textIn source = ['o', 'f']
        · refine ⟨.overValues, by decide, ?_⟩
          rw [outlineKind, name, found]
          exact if_pos isOf
        · refine ⟨.overKeys, by decide, ?_⟩
          rw [outlineKind, name, found]
          exact if_neg isOf

end Concrete

namespace Outline

/-- The entry of a node that stands directly within a node of kind `within`. -/
def nodeEntry (source : List Char) (within : String) (slot : Slot) (t : Concrete) : Entry where
  kind := t.outlineKind source within
  origin := t.kind
  span := t.spanIn source
  slot := slot

/-- The entry of the declaration in the header of the loop `id`. -/
def headerEntry (source : List Char) (keyword left : Concrete) (id : Nat) : Entry where
  kind := .declaration (Keyword.ofChars (keyword.textIn source))
  origin :=
    if Keyword.ofChars (keyword.textIn source) = .var then "variable_declaration"
    else "lexical_declaration"
  span := Span.ofRange source keyword.label.start left.label.stop
  slot := ⟨id, false⟩

/-- The plan for the children of a node that stands aside in a slot. -/
def asidePlan (slot : Slot) (t : Concrete) : Plan where
  slot := ⟨slot.parent, false⟩
  special := if t.kind = "parenthesized_expression" then none else some (.firstNamed, slot)

/-- The plan for the children of a node that was recorded as `id` and declares no loop variable. -/
def ownPlan (id : Nat) (t : Concrete) : Plan where
  slot := ⟨id, false⟩
  special := if t.kind = "export_statement" then some (.field "declaration", ⟨id, true⟩) else none

/-- The plan for the children of a loop with its header, which are recorded as `id` and `id + 1`. -/
def loopPlan (id : Nat) : Plan where
  slot := ⟨id, false⟩
  special := some (.field "left", ⟨id + 1, false⟩)

variable {source : List Char} {within : String} {slot : Slot} {t : Concrete} {o : Outline}

theorem addNode_eq (source : List Char) (t : Concrete) (within : String) (slot : Slot)
    (o : Outline) :
    addNode source t within slot o =
      match enter source t within slot o with
      | none => o
      | some (entered, plan) => addChildren source t.children t.kind plan entered := by
  cases t
  rw [addNode]
  rfl

theorem addNode_comment (comment : Concrete.isComment t.kind) :
    addNode source t within slot o = o := by
  rw [addNode_eq, enter, if_pos comment]

theorem addNode_aside (visible : Concrete.isComment t.kind = false) (aside : t.standsAside) :
    addNode source t within slot o =
      addChildren source t.children t.kind (asidePlan slot t) o := by
  have shown : ¬ Concrete.isComment t.kind := by simp [visible]
  rw [addNode_eq, enter, if_neg shown]
  by_cases parenthesis : t.kind = "parenthesized_expression"
  · rw [if_pos parenthesis, asidePlan, if_pos parenthesis]
  · have wraps := Concrete.wrapsDeclaration_of_standsAside aside parenthesis
    rw [if_neg parenthesis, if_pos wraps, asidePlan, if_neg parenthesis]

/-- A node that neither is a comment nor stands aside is recorded before its children. -/
theorem addNode_recorded (visible : Concrete.isComment t.kind = false)
    (stays : t.standsAside = false) :
    addNode source t within slot o =
      let below := planBelow source t (t.outlineKind source within) o.size
        (o.record (nodeEntry source within slot t))
      addChildren source t.children t.kind below.2 below.1 := by
  have shown : ¬ Concrete.isComment t.kind := by simp [visible]
  have apart : ¬ t.kind = "parenthesized_expression" ∧ ¬ t.wrapsDeclaration := by
    simpa [Concrete.standsAside] using stays
  rw [addNode_eq, enter, if_neg shown, if_neg apart.1, if_neg apart.2]
  rfl

theorem addNode_loop {keyword left : Concrete} (header : t.loopHeader? = some (keyword, left)) :
    addNode source t within slot o =
      addChildren source t.children t.kind (loopPlan o.size)
        ((o.record (nodeEntry source within slot t)).record
          (headerEntry source keyword left o.size)) := by
  have loop := Concrete.kind_of_loopHeader? header
  have visible : Concrete.isComment t.kind = false := by
    rw [loop]
    decide
  have stays : t.standsAside = false := by
    simp [Concrete.standsAside, Concrete.wrapsDeclaration, loop]
  obtain ⟨form, other, kind⟩ : ∃ form, form ≠ .counting ∧ t.outlineKind source within = .loop form :=
    Concrete.exists_outlineKind_eq_loop_iff.mpr loop
  have fields := Concrete.header?_of_loopHeader? header
  rw [addNode_recorded visible stays, kind]
  cases form with
  | counting => exact absurd rfl other
  | overKeys =>
      simp only [planBelow, fields, size_record]
      rfl
  | overValues =>
      simp only [planBelow, fields, size_record]
      rfl

theorem addNode_plain (visible : Concrete.isComment t.kind = false)
    (stays : t.standsAside = false) (bare : t.loopHeader? = none) :
    addNode source t within slot o =
      addChildren source t.children t.kind (ownPlan o.size t)
        (o.record (nodeEntry source within slot t)) := by
  rw [addNode_recorded visible stays]
  by_cases exported : t.kind = "export_statement"
  · rw [Concrete.outlineKind_eq_exported_iff.mpr exported, ownPlan, if_pos exported]
    rfl
  · have other : t.outlineKind source within ≠ .exported :=
      fun h => exported (Concrete.outlineKind_eq_exported_iff.mp h)
    rw [ownPlan, if_neg exported]
    unfold planBelow
    split
    · have loop := Concrete.exists_outlineKind_eq_loop_iff.mp ⟨.overKeys, by decide, ‹_›⟩
      rw [Concrete.loopHeader?, if_pos loop] at bare
      rw [bare]
    · have loop := Concrete.exists_outlineKind_eq_loop_iff.mp ⟨.overValues, by decide, ‹_›⟩
      rw [Concrete.loopHeader?, if_pos loop] at bare
      rw [bare]
    · exact absurd ‹_› other
    · rfl

/-- Enter a child in its slot, if it is a named one. -/
def addChild (source : List Char) (within : String) (slot : Slot) (t : Concrete) (o : Outline) :
    Outline :=
  if t.isNamed then addNode source t within slot o else o

theorem addChild_hidden (hidden : t.isVisible = false) : addChild source within slot t o = o := by
  unfold addChild
  split
  · rename_i named
    exact addNode_comment (by simpa [Concrete.isVisible, named] using hidden)
  · rfl

namespace Plan

/-- The slot of the child with the given number. -/
def slotOf (plan : Plan) (children : List Concrete) (number : Nat) : Slot :=
  match plan.special with
  | some (pick, own) =>
      if children.findIdx? pick.chooses = some number then own else plan.slot
  | none => plan.slot

/-- The plan for the children that follow `t`. -/
def after (plan : Plan) (t : Concrete) : Plan :=
  match plan.special with
  | some (pick, _) => if pick.chooses t then { plan with special := none } else plan
  | none => plan

theorem slotOf_after (plan : Plan) (t : Concrete) (ts : List Concrete) (number : Nat) :
    (plan.after t).slotOf ts number = plan.slotOf (t :: ts) (number + 1) := by
  unfold after slotOf
  cases special : plan.special with
  | none => simp only [special]
  | some choice =>
      obtain ⟨pick, own⟩ := choice
      by_cases chosen : pick.chooses t
      · simp [List.findIdx?_cons, chosen]
      · cases found : ts.findIdx? pick.chooses <;>
          simp [List.findIdx?_cons, chosen, special, found]

theorem slotOf_cases (plan : Plan) (children : List Concrete) (number : Nat) :
    plan.slotOf children number = plan.slot ∨
      ∃ pick own, plan.special = some (pick, own) ∧ plan.slotOf children number = own := by
  unfold slotOf
  split
  · split
    · exact .inr ⟨_, _, by assumption, rfl⟩
    · exact .inl rfl
  · exact .inl rfl

end Plan

/-- A child that stands aside leaves its slot to one of its children at most, and its parent to all. -/
theorem slotOf_asidePlan (slot : Slot) (t : Concrete) (children : List Concrete) (number : Nat) :
    (asidePlan slot t).slotOf children number = slot ∨
      (asidePlan slot t).slotOf children number = ⟨slot.parent, false⟩ := by
  rcases Plan.slotOf_cases (asidePlan slot t) children number with
      plain | ⟨pick, own, special, same⟩
  · exact .inr plain
  · refine .inl ?_
    by_cases parenthesis : t.kind = "parenthesized_expression"
    · simp [asidePlan, parenthesis] at special
    · simp only [asidePlan, parenthesis, if_false, Option.some.injEq, Prod.mk.injEq] at special
      exact same.trans special.2.symm

theorem slotOf_ownPlan (id : Nat) (t : Concrete) (children : List Concrete) (number : Nat) :
    (ownPlan id t).slotOf children number = ⟨id, false⟩ ∨
      t.kind = "export_statement" ∧ (ownPlan id t).slotOf children number = ⟨id, true⟩ := by
  rcases Plan.slotOf_cases (ownPlan id t) children number with
      plain | ⟨pick, own, special, same⟩
  · exact .inl plain
  · by_cases exported : t.kind = "export_statement"
    · simp only [ownPlan, exported, if_true, Option.some.injEq, Prod.mk.injEq] at special
      exact .inr ⟨exported, same.trans special.2.symm⟩
    · simp [ownPlan, exported] at special

/-- The children are entered one after the other, each in its slot. -/
theorem addChildren_cons (source : List Char) (t : Concrete) (ts : List Concrete) (within : String)
    (plan : Plan) (o : Outline) :
    addChildren source (t :: ts) within plan o =
      addChildren source ts within (plan.after t)
        (addChild source within (plan.slotOf (t :: ts) 0) t o) := by
  rw [addChildren]
  unfold Plan.after Plan.slotOf addChild
  cases plan.special with
  | none => rfl
  | some choice =>
      obtain ⟨pick, own⟩ := choice
      by_cases chosen : pick.chooses t
      · simp [List.findIdx?_cons, chosen]
      · cases ts.findIdx? pick.chooses <;> simp [List.findIdx?_cons, chosen]

section Binding

variable {children : List Concrete} {id : Nat}

/-- The binding of a loop header goes below the header, and what follows it goes below the loop. -/
theorem addChildren_binding (chosen : t.fills "left") :
    addChildren source (t :: children) within (loopPlan id) o =
      addChildren source children within ⟨⟨id, false⟩, none⟩
        (addChild source within ⟨id + 1, false⟩ t o) := by
  rw [addChildren]
  exact if_pos chosen

theorem addChildren_beforeBinding (other : t.fills "left" = false) :
    addChildren source (t :: children) within (loopPlan id) o =
      addChildren source children within (loopPlan id) (addChild source within ⟨id, false⟩ t o) := by
  rw [addChildren]
  exact if_neg (by simp [Pick.chooses, other])

end Binding

end Outline

end ScopeLint
