import Mathlib.Data.List.Sort
import ScopeLint.Proofs.Plan
import ScopeLint.Proofs.Visits

/-!
# Entering in pre-order

An outline is nested when every node went below the node entered before it, or below one on the way up
from there. What lies below a node is then a run of consecutive indices, so visiting an outline in
pre-order is going through its table.

Outlining enters the nodes in this way as long as no loop has anything but tokens and comments before the
binding of its header. Anything else there would be entered after the declaration of the header and before
what goes below that declaration.
-/

namespace ScopeLint

namespace Concrete

/-- Whether the binding is the first visible child, in case the node is a loop that declares its
variable. -/
def bindingFirst (t : Concrete) : Bool :=
  t.loopHeader?.isNone || t.children.findIdx? (fills "left") = t.children.findIdx? isVisible

mutual

/-- Whether every loop that declares its variable has the binding first. -/
def bindingsFirst : Concrete → Bool
  | node label children => (node label children).bindingFirst && allBindingsFirst children

def allBindingsFirst : List Concrete → Bool
  | [] => true
  | t :: ts => t.bindingsFirst && allBindingsFirst ts

end

theorem allBindingsFirst_iff {ts : List Concrete} :
    allBindingsFirst ts ↔ ∀ t ∈ ts, t.bindingsFirst := by
  induction ts with
  | nil => simp [allBindingsFirst]
  | cons t ts ih => simp [allBindingsFirst, ih]

theorem bindingsFirst_iff {t : Concrete} :
    t.bindingsFirst ↔ t.bindingFirst ∧ ∀ child ∈ t.children, child.bindingsFirst := by
  obtain ⟨label, children⟩ := t
  rw [bindingsFirst, Bool.and_eq_true, allBindingsFirst_iff]
  rfl

end Concrete

namespace Outline

variable {o o' : Outline} {e : Entry} {id x : Nat}

/-- Whether every node is below the one before it, or below one on the way up from there. -/
def Nested (o : Outline) : Prop :=
  ∀ id parent, o.parent? (id + 1) = some parent → parent ∈ o.upward id

namespace Nested

/-- What lies between a node and one below it lies below it too. -/
theorem consecutive (nested : o.Nested) (h : o.Linked) {between : Nat} (inside : x < o.size)
    (below : id ∈ o.upward x) (lower : id ≤ between) (upper : between ≤ x) :
    id ∈ o.upward between := by
  induction upper with
  | refl => exact below
  | step upper ih =>
      rename_i last
      obtain ⟨parent, link, _⟩ := h.parent_smaller (last + 1) (Nat.succ_ne_zero last) inside
      have previous : last < o.size := Nat.lt_of_succ_lt inside
      refine ih previous ?_
      rw [upward_of_parent? h link] at below
      rcases List.mem_cons.mp below with same | above
      · exact absurd same (Nat.ne_of_lt (Nat.lt_succ_of_le (Nat.le_trans lower upper)))
      · exact (upward_suffix h previous (nested last parent link)).subset above

/-- What lies below a child comes before what lies below a later one. -/
theorem beside (nested : o.Nested) (h : o.Linked) {parent left right y : Nat}
    (isLeft : o.parent? left = some parent) (isRight : o.parent? right = some parent)
    (less : left < right) (inside : x < o.size) (inside' : y < o.size)
    (below : left ∈ o.upward x) (below' : right ∈ o.upward y) : x < y := by
  by_contra beyond
  have reaches : right ≤ x := by
    have := le_of_mem_upward h inside' below'
    omega
  have within := nested.consecutive h inside below (Nat.le_of_lt less) reaches
  rw [upward_of_parent? h isRight] at within
  rcases List.mem_cons.mp within with same | above
  · exact absurd same (Nat.ne_of_lt less)
  · have smaller := h.parent_lt isLeft
    have := le_of_mem_upward h (Nat.lt_trans smaller (lt_size_of_parent? isLeft)) above
    omega

/-- Visiting a nested outline goes through its table. -/
theorem visits_eq (nested : o.Nested) (h : o.Linked) :
    o.visits = o.ids.map fun id => ⟨id, o.lineage id⟩ := by
  have start : root < o.size := h.inhabited
  have nodes : o.visits.map Visit.node = o.ids := by
    refine List.Pairwise.eq_of_mem_iff (r := (· < ·)) ?_ List.pairwise_lt_range ?_
    · rw [List.pairwise_map, visits, ← lineage_root h]
      refine visitsFrom_pairwise h ?_ ?_ start
      · intro id x inside above
        exact List.rel_of_pairwise_cons (upward_descending h inside) above
      · intro parent left right isLeft isRight less x y inside inside' below below'
        exact nested.beside h isLeft isRight less inside inside' below below'
    · intro id
      rw [mem_map_visits h, ids, List.mem_range]
  rw [← nodes, List.map_map]
  refine (List.map_id _).symm.trans (List.map_congr_left fun visit met => ?_)
  obtain ⟨node, path⟩ := visit
  have same : path = o.lineage node := ((mem_visits h).mp met).2
  rw [same]
  rfl

theorem visitsWhere_eq (nested : o.Nested) (h : o.Linked) (interest : Kind → Bool) :
    o.visitsWhere interest =
      (o.ids.filter fun id => interest (o.kind id)).map fun id => ⟨id, o.lineage id⟩ := by
  rw [visitsWhere, nested.visits_eq h, List.filter_map]
  rfl

end Nested

/-- Whether entering may go on below a node: it is the last one entered, or above that one. -/
structure Current (o : Outline) (id : Nat) : Prop where
  linked : o.Linked
  nested : o.Nested
  recent : id ∈ o.upward (o.size - 1)

namespace Current

theorem last_lt (h : o.Current id) : o.size - 1 < o.size :=
  Nat.sub_lt h.linked.inhabited Nat.zero_lt_one

theorem bound (h : o.Current id) : id < o.size :=
  Nat.lt_of_le_of_lt (le_of_mem_upward h.linked h.last_lt h.recent) h.last_lt

theorem above (h : o.Current id) (way : x ∈ o.upward id) : o.Current x :=
  ⟨h.linked, h.nested, (upward_suffix h.linked h.last_lt h.recent).subset way⟩

theorem ofRoot (origin : String) (span : Span) : (ofRoot origin span).Current root where
  linked := .ofRoot origin span
  nested := by
    intro id parent link
    rw [parent?_ofRoot] at link
    cases link
  recent := mem_upward_self _ _

/-- A node entered below a current one is current itself. -/
theorem record (h : o.Current e.slot.parent)
    (exported : e.slot.isPayload → o.kind e.slot.parent = .exported) :
    (o.record e).Current o.size where
  linked := h.linked.record ⟨h.bound, exported⟩
  nested := by
    intro id parent link
    have grown := Extends.record h.bound
    rw [parent?_record h.bound] at link
    split at link
    · rename_i last
      cases link
      have recent := h.recent
      rw [← last, Nat.add_sub_cancel] at recent
      rw [grown.upward (by omega)]
      exact recent
    · have inside := lt_size_of_parent? link
      rw [grown.upward (by omega)]
      exact h.nested id parent link
  recent := by
    rw [size_record, Nat.add_sub_cancel]
    exact mem_upward_self _ _

end Current

/-- Whether entering a node in a slot leaves the parent of the slot current. -/
def Stays (source : List Char) (t : Concrete) : Prop :=
  ∀ ⦃within slot o⦄, slot.Open o → o.Current slot.parent →
    o.Extends (addNode source t within slot o) ∧ (addNode source t within slot o).Current slot.parent

variable {source : List Char} {children : List Concrete} {within : String}

theorem addChild_stays {t : Concrete} {slot : Slot} (stays : Stays source t) (isOpen : slot.Open o)
    (current : o.Current slot.parent) :
    o.Extends (addChild source within slot t o) ∧
      (addChild source within slot t o).Current slot.parent := by
  unfold addChild
  split
  · exact stays isOpen current
  · exact ⟨.refl o, current⟩

/-- Children that all go below one node leave it current. -/
theorem addChildren_stays (stays : ∀ child ∈ children, Stays source child) {plan : Plan}
    (below : ∀ number, (plan.slotOf children number).parent = id)
    (exported : ∀ number, (plan.slotOf children number).isPayload → o.kind id = .exported)
    (current : o.Current id) :
    o.Extends (addChildren source children within plan o) ∧
      (addChildren source children within plan o).Current id := by
  induction children generalizing plan o with
  | nil =>
      rw [addChildren]
      exact ⟨.refl o, current⟩
  | cons child children ih =>
      rw [addChildren_cons]
      have here := below 0
      obtain ⟨grown, after⟩ := addChild_stays (stays child List.mem_cons_self)
        ⟨here ▸ current.bound, fun payload => here ▸ exported 0 payload⟩ (here ▸ current)
      rw [here] at after
      obtain ⟨later, finish⟩ := ih (fun child member => stays child (List.mem_cons_of_mem _ member))
        (fun number => by
          rw [Plan.slotOf_after]
          exact below (number + 1))
        (fun number payload => by
          rw [Plan.slotOf_after] at payload
          rw [grown.kind id current.bound]
          exact exported (number + 1) payload) after
      exact ⟨grown.trans later, finish⟩

/-- The children of a loop leave it current, if the binding of its header is the first one entered. -/
theorem loopChildren_stay (stays : ∀ child ∈ children, Stays source child)
    (first : children.findIdx? (Concrete.fills "left") = children.findIdx? Concrete.isVisible)
    (link : o.parent? (id + 1) = some id) (current : o.Current (id + 1)) :
    o.Extends (addChildren source children within (loopPlan id) o) ∧
      (addChildren source children within (loopPlan id) o).Current id := by
  have near := mem_upward_of_parent? current.linked link
  induction children with
  | nil =>
      rw [addChildren]
      exact ⟨.refl o, current.above near⟩
  | cons child children ih =>
      have later : ∀ child ∈ children, Stays source child :=
        fun child member => stays child (List.mem_cons_of_mem _ member)
      cases isLeft : child.fills "left" with
      | true =>
          obtain ⟨grown, after⟩ : o.Extends (addChild source within ⟨id + 1, false⟩ child o) ∧
              (addChild source within ⟨id + 1, false⟩ child o).Current (id + 1) :=
            addChild_stays (stays child List.mem_cons_self) ⟨current.bound, Bool.noConfusion⟩ current
          have back : (addChild source within ⟨id + 1, false⟩ child o).Current id := by
            refine after.above ?_
            rw [grown.upward current.bound]
            exact near
          have plain : ∀ number, Plan.slotOf ⟨⟨id, false⟩, none⟩ children number = ⟨id, false⟩ :=
            fun _ => rfl
          obtain ⟨onward, finish⟩ := addChildren_stays later (fun number => by rw [plain number])
            (fun number payload => by
              rw [plain number] at payload
              cases payload) back
          rw [addChildren_binding isLeft]
          exact ⟨grown.trans onward, finish⟩
      | false =>
          -- a visible child before the binding would be the first one
          rw [List.findIdx?_cons, List.findIdx?_cons, if_neg (by simp [isLeft])] at first
          cases seen : child.isVisible with
          | true =>
              rw [if_pos seen] at first
              obtain ⟨_, _, impossible⟩ := Option.map_eq_some_iff.mp first
              cases impossible
          | false =>
              rw [if_neg (by simp [seen])] at first
              rw [addChildren_beforeBinding isLeft, addChild_hidden seen]
              exact ih later (Option.map_injective Nat.succ_injective first)

/-- A node that stands aside leaves what it stands below to its children. -/
theorem aside_stays {t : Concrete} (stays : ∀ child ∈ t.children, Stays source child)
    (visible : Concrete.isComment t.kind = false) (aside : t.standsAside) : Stays source t := by
  intro within slot o isOpen current
  rw [addNode_aside visible aside]
  refine addChildren_stays stays ?_ ?_ current
  · intro number
    rcases slotOf_asidePlan slot t t.children number with same | same <;> rw [same]
  · intro number payload
    rcases slotOf_asidePlan slot t t.children number with same | same <;> rw [same] at payload
    · exact isOpen.exported payload
    · cases payload

/-- Where a node has been recorded, its parent is current again after its children. -/
theorem Current.back {entered : Outline} (current : o.Current e.slot.parent)
    (exported : e.slot.isPayload → o.kind e.slot.parent = .exported)
    (grown : (o.record e).Extends entered) (finish : entered.Current o.size) :
    o.Extends entered ∧ entered.Current e.slot.parent := by
  have recorded := current.record exported
  refine ⟨(Extends.record current.bound).trans grown, finish.above ?_⟩
  have link : (o.record e).parent? o.size = some e.slot.parent := by
    rw [parent?_record current.bound, if_pos rfl]
  rw [grown.upward recorded.bound]
  exact mem_upward_of_parent? recorded.linked link

theorem plain_stays {t : Concrete} (stays : ∀ child ∈ t.children, Stays source child)
    (visible : Concrete.isComment t.kind = false) (recorded : t.standsAside = false)
    (bare : t.loopHeader? = none) : Stays source t := by
  intro within slot o isOpen current
  rw [addNode_plain visible recorded bare]
  have entered : (o.record (nodeEntry source within slot t)).Current o.size :=
    Current.record current isOpen.exported
  obtain ⟨grown, finish⟩ := addChildren_stays stays
    (fun number => by
      rcases slotOf_ownPlan o.size t t.children number with same | ⟨_, same⟩ <;> rw [same])
    (fun number payload => by
      rcases slotOf_ownPlan o.size t t.children number with same | ⟨name, same⟩
      · rw [same] at payload
        cases payload
      · rw [kind_record current.bound, if_pos rfl]
        exact Concrete.outlineKind_eq_exported_iff.mpr name) entered
  exact Current.back current isOpen.exported grown finish

theorem loop_stays {t keyword left : Concrete} (stays : ∀ child ∈ t.children, Stays source child)
    (header : t.loopHeader? = some (keyword, left))
    (first : t.children.findIdx? (Concrete.fills "left") = t.children.findIdx? Concrete.isVisible) :
    Stays source t := by
  intro within slot o isOpen current
  rw [addNode_loop header]
  have entered : (o.record (nodeEntry source within slot t)).Current o.size :=
    Current.record current isOpen.exported
  have declared : ((o.record (nodeEntry source within slot t)).record
      (headerEntry source keyword left o.size)).Current (o.size + 1) := by
    rw [← size_record (o := o) (e := nodeEntry source within slot t)]
    exact Current.record entered nofun
  have link : ((o.record (nodeEntry source within slot t)).record
      (headerEntry source keyword left o.size)).parent? (o.size + 1) = some o.size := by
    rw [parent?_record entered.bound, size_record, if_pos rfl]
    rfl
  obtain ⟨grown, finish⟩ := loopChildren_stay stays first link declared
  exact Current.back current isOpen.exported ((Extends.record entered.bound).trans grown) finish

/-- A tree with every binding in front is entered below a current node, and leaves it current. -/
theorem addNode_stays (source : List Char) (t : Concrete) (first : t.bindingsFirst) :
    Stays source t := by
  induction t with
  | node label children ih =>
      obtain ⟨here, below⟩ := Concrete.bindingsFirst_iff.mp first
      have stays : ∀ child ∈ children, Stays source child :=
        fun child member => ih child member (below child member)
      cases visible : Concrete.isComment (Concrete.node label children).kind with
      | true =>
          intro within slot o _ current
          rw [addNode_comment visible]
          exact ⟨.refl o, current⟩
      | false =>
          cases aside : (Concrete.node label children).standsAside with
          | true => exact aside_stays stays visible aside
          | false =>
              cases header : (Concrete.node label children).loopHeader? with
              | none => exact plain_stays stays visible aside header
              | some parts =>
                  have first := by simpa [Concrete.bindingFirst, header] using here
                  exact loop_stays stays header first

/-- Outlining a tree with every binding in front gives a nested outline. -/
theorem ofConcrete_nested (source : List Char) (t : Concrete) (first : t.bindingsFirst) :
    (ofConcrete source t).Nested := by
  obtain ⟨_, below⟩ := Concrete.bindingsFirst_iff.mp first
  have stays : ∀ child ∈ t.children, Stays source child :=
    fun child member => addNode_stays source child (below child member)
  refine (addChildren_stays stays ?_ ?_ (.ofRoot _ _)).2.nested
  · intro number
    rfl
  · intro number
    exact nofun

end Outline

end ScopeLint
