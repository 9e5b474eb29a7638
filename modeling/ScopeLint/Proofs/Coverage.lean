import ScopeLint.Proofs.Provenance

/-!
# Outlining goes through the whole tree

`Covers` says that a list of origins has all kept addresses of a region, in pre-order and each once,
with every header directly after its loop. Regions that follow each other are put together from the
child regions up, in the way in which a node is entered before its children and a child before the next.
-/

namespace ScopeLint

variable {t : Concrete} {a : Address}

/-- Whether a list of origins has what a region of the tree keeps, in pre-order, with the header of a
loop directly after the loop. -/
structure Covers (t : Concrete) (region : Address → Prop) (origins : List Origin) : Prop where
  ordered : (origins.filterMap Origin.node?).Pairwise Address.Before
  complete : ∀ a, .node a ∈ origins ↔ region a ∧ t.Kept a
  headers : ∀ a keyword left, region a → t.Headed a keyword left →
    [.node a, .header a] <:+: origins

namespace Covers

variable {region other : Address → Prop} {origins more : List Origin}

theorem congr (h : Covers t region origins) (same : ∀ a, t.Kept a → (region a ↔ other a)) :
    Covers t other origins where
  ordered := h.ordered
  complete := by
    intro a
    rw [h.complete]
    exact and_congr_left (same a)
  headers := by
    intro a keyword left inside headed
    exact h.headers a keyword left ((same a headed.kept).mpr inside) headed

theorem nil (none : ∀ a, region a → ¬ t.Kept a) : Covers t region [] where
  ordered := .nil
  complete := by
    intro a
    simpa using none a
  headers := by
    intro a keyword left inside headed
    exact absurd headed.kept (none a inside)

theorem mem_node? (a : Address) : a ∈ origins.filterMap Origin.node? ↔ .node a ∈ origins := by
  rw [List.mem_filterMap]
  constructor
  · rintro ⟨origin, member, same⟩
    cases origin with
    | node _ =>
        cases same
        exact member
    | header _ => cases same
  · intro member
    exact ⟨_, member, rfl⟩

/-- Regions that follow each other in pre-order are covered by what covers them, one after the other. -/
theorem append (h : Covers t region origins) (next : Covers t other more)
    (apart : ∀ a b, region a → other b → Address.Before a b) :
    Covers t (fun a => region a ∨ other a) (origins ++ more) where
  ordered := by
    rw [List.filterMap_append]
    refine List.pairwise_append.mpr ⟨h.ordered, next.ordered, ?_⟩
    intro a first b second
    rw [mem_node?, h.complete] at first
    rw [mem_node?, next.complete] at second
    exact apart a b first.1 second.1
  complete := by
    intro a
    rw [List.mem_append, h.complete, next.complete, or_and_right]
  headers := by
    rintro a keyword left (inside | inside) headed
    · exact List.infix_append_of_infix_left (h.headers a keyword left inside headed)
    · exact List.infix_append_of_infix_right (next.headers a keyword left inside headed)

/-- A kept node without a header covers its own address. -/
theorem bare (kept : t.Kept a) (unheaded : ∀ keyword left, ¬ t.Headed a keyword left) :
    Covers t (· = a) [.node a] where
  ordered := List.pairwise_singleton _ _
  complete := by
    intro b
    constructor
    · intro member
      cases List.mem_singleton.mp member
      exact ⟨rfl, kept⟩
    · rintro ⟨rfl, _⟩
      exact List.mem_singleton_self _
  headers := by
    rintro b keyword left rfl headed
    exact absurd headed (unheaded keyword left)

/-- A loop and its header cover the address of the loop. -/
theorem headed {keyword left : Concrete} (headed : t.Headed a keyword left) :
    Covers t (· = a) [.node a, .header a] where
  ordered := List.pairwise_singleton _ _
  complete := by
    intro b
    constructor
    · intro member
      obtain rfl : b = a := by simpa using member
      exact ⟨rfl, headed.kept⟩
    · rintro ⟨rfl, _⟩
      exact List.mem_cons_self
  headers := by
    rintro b _ _ rfl _
    exact List.infix_refl _

/-- What covers a node and what covers the regions of its children cover its whole region. -/
theorem below (h : Covers t (· = a) origins) (children : Covers t (Address.From a 0) more) :
    Covers t (a <+: ·) (origins ++ more) := by
  refine (h.append children ?_).congr ?_
  · rintro _ b rfl ⟨number, _, below⟩
    exact .of_below below
  · intro b _
    exact Address.prefix_iff.symm

theorem aside (h : Covers t (Address.From a 0) origins) (aside : ¬ t.Kept a) :
    Covers t (a <+: ·) origins := by
  refine h.congr fun b kept => ?_
  rw [Address.prefix_iff]
  refine ⟨.inr, ?_⟩
  rintro (rfl | inside)
  · exact absurd kept aside
  · exact inside

/-- The region of a child and those of the later children make up those from the child on. -/
theorem child {first : Nat} (h : Covers t (a ++ [first] <+: ·) origins)
    (later : Covers t (Address.From a (first + 1)) more) :
    Covers t (Address.From a first) (origins ++ more) := by
  refine (h.append later ?_).congr fun b _ => Address.from_iff.symm
  rintro b c left ⟨number, beyond, right⟩
  exact .of_branch beyond left right

end Covers

namespace Outline

variable {n : Concrete} {slot : Slot} {origins : List Origin} {number : Nat}

/-- The children of a node that stands aside get slots that suit them, if the node had one. -/
theorem asidePlan_suits (suits : slot.Suits t a origins) (found : t.at? a = some n)
    (below : a ≠ []) (aside : n.standsAside) (number : Nat) :
    ((asidePlan slot n).slotOf n.children number).Suits t (a ++ [number]) origins := by
  have unkept := Concrete.not_kept_of_standsAside below found aside
  obtain ⟨r, owner, place⟩ := suits.owner
  have plain : Slot.Suits ⟨slot.parent, false⟩ t (a ++ [number]) origins :=
    ⟨⟨r, owner.concat unkept number, place⟩, nofun⟩
  unfold Plan.slotOf asidePlan
  by_cases parenthesis : n.kind = "parenthesized_expression"
  · rw [if_pos parenthesis]
    exact plain
  · have wraps := Concrete.wrapsDeclaration_of_standsAside aside parenthesis
    rw [if_neg parenthesis]
    dsimp only
    split
    · rename_i first
      refine ⟨⟨r, owner.concat unkept number, place⟩, fun flag => ?_⟩
      obtain ⟨b, wrapper, here⟩ := suits.payload flag
      refine ⟨b, ?_, here⟩
      cases wrapper with
      | field outer top exported declaration =>
          exact .declared outer top exported declaration found wraps first
      | declared _ _ _ _ ambient outside inner =>
          -- the declaration inside a `declare` statement is no such statement itself
          rw [Concrete.at?_concat ambient] at found
          have kind := Concrete.kind_of_wrapped outside inner found
          rw [(Concrete.wrapsDeclaration_iff.mp wraps).1] at kind
          exact absurd kind (by decide)
    · exact plain

/-- The children of a kept node without a header get slots that suit them. -/
theorem ownPlan_suits {id : Nat} (place : origins[id]? = some (.node a)) (found : t.at? a = some n)
    (below : a ≠ []) (kept : t.Kept a) (bare : n.loopHeader? = none) (number : Nat) :
    ((ownPlan id n).slotOf n.children number).Suits t (a ++ [number]) origins := by
  have owner := Concrete.owner_of_bare kept (Concrete.not_headed found bare) number
  unfold Plan.slotOf ownPlan
  by_cases exported : n.kind = "export_statement"
  · rw [if_pos exported]
    dsimp only
    split
    · exact ⟨⟨_, owner, place⟩, fun _ => ⟨a, .field found below exported ‹_›, place⟩⟩
    · exact ⟨⟨_, owner, place⟩, nofun⟩
  · rw [if_neg exported]
    exact ⟨⟨_, owner, place⟩, nofun⟩

/-- The children of a loop get slots that suit them, the binding one below the header. -/
theorem loopPlan_suits {id : Nat} {keyword left : Concrete} (place : origins[id]? = some (.node a))
    (next : origins[id + 1]? = some (.header a)) (found : t.at? a = some n)
    (headed : t.Headed a keyword left) (number : Nat) :
    ((loopPlan id).slotOf n.children number).Suits t (a ++ [number]) origins := by
  have owner := Concrete.owner_of_headed headed found number
  have choice : (Pick.field "left").chooses = Concrete.fills "left" := rfl
  unfold Plan.slotOf loopPlan
  dsimp only
  rw [choice]
  by_cases first : n.children.findIdx? (Concrete.fills "left") = some number
  · rw [if_pos first] at owner ⊢
    exact ⟨⟨_, owner, next⟩, nofun⟩
  · rw [if_neg first] at owner ⊢
    exact ⟨⟨_, owner, place⟩, nofun⟩

/-- Whether entering the node `n`, wherever it stands in `t`, covers its region of `t`. -/
def Enters (source : List Char) (t n : Concrete) : Prop :=
  ∀ ⦃a number m slot o origins⦄, t.at? a = some m → m.children[number]? = some n → t.Reached a →
    n.isNamed → Entered source t o origins → slot.Suits t (a ++ [number]) origins →
    ∃ new, Entered source t (addNode source n m.kind slot o) (origins ++ new) ∧
      Covers t (a ++ [number] <+: ·) new

/-- Entering the children from a number on covers their regions, if each one does so with its own. -/
theorem addChildren_entered {source : List Char} {m : Concrete} (above : t.at? a = some m)
    (reached : t.Reached a) (enters : ∀ child ∈ m.children, Enters source t child)
    {children : List Concrete} {first : Nat} {plan : Plan} {o : Outline} {origins : List Origin}
    (rest : m.children.drop first = children) (before : Entered source t o origins)
    (suits : ∀ number, (plan.slotOf children number).Suits t (a ++ [first + number]) origins) :
    ∃ new, Entered source t (addChildren source children m.kind plan o) (origins ++ new) ∧
      Covers t (a.From first) new := by
  induction children generalizing first plan o origins with
  | nil =>
      refine ⟨[], by simpa [addChildren] using before, .nil ?_⟩
      rintro b ⟨number, beyond, below⟩
      refine Concrete.not_kept_below (by simp) ?_ below
      intro n found
      have none : m.children[number]? = none :=
        List.getElem?_eq_none (Nat.le_trans (List.drop_eq_nil_iff.mp rest) beyond)
      rw [Concrete.at?_concat above, none] at found
      cases found
  | cons child children ih =>
      have here : m.children[first]? = some child := by
        rw [← List.head?_drop, rest]
        rfl
      have later : m.children.drop (first + 1) = children := by
        rw [← List.tail_drop, rest]
        rfl
      obtain ⟨new, entered, covers⟩ : ∃ new,
          Entered source t (addChild source m.kind (plan.slotOf (child :: children) 0) child o)
            (origins ++ new) ∧ Covers t (a ++ [first] <+: ·) new := by
        unfold addChild
        by_cases named : child.isNamed
        · rw [if_pos named]
          exact enters child (List.mem_of_getElem? here) above here reached named before (suits 0)
        · rw [if_neg named]
          refine ⟨[], by simpa using before, .nil fun b below => ?_⟩
          refine Concrete.not_kept_below (by simp) ?_ below
          intro n found isNamed
          rw [Concrete.at?_concat above, here] at found
          cases found
          exact absurd isNamed named
      obtain ⟨more, finished, covered⟩ := ih later entered (fun number => by
        rw [Plan.slotOf_after]
        have shifted := (suits (number + 1)).append new
        rwa [show first + (number + 1) = first + 1 + number by omega] at shifted)
      refine ⟨new ++ more, ?_, covers.child covered⟩
      rw [addChildren_cons, ← List.append_assoc]
      exact finished

theorem allChildren_entered {source : List Char} {m : Concrete} (above : t.at? a = some m)
    (reached : t.Reached a) (enters : ∀ child ∈ m.children, Enters source t child) {plan : Plan}
    {o : Outline} {origins : List Origin} (before : Entered source t o origins)
    (suits : ∀ number, (plan.slotOf m.children number).Suits t (a ++ [number]) origins) :
    ∃ new, Entered source t (addChildren source m.children m.kind plan o) (origins ++ new) ∧
      Covers t (a.From 0) new := by
  refine addChildren_entered above reached enters List.drop_zero before fun number => ?_
  rw [Nat.zero_add]
  exact suits number

section Node

variable {source : List Char} {number : Nat} {m : Concrete} {o : Outline}
variable (enters : ∀ child ∈ n.children, Enters source t child)
variable (above : t.at? a = some m) (child : m.children[number]? = some n)
variable (before : Entered source t o origins) (suits : slot.Suits t (a ++ [number]) origins)
include enters above child before suits

/-- Entering a node that stands aside comes down to entering its children. -/
theorem addNode_aside_entered (here : t.Reached (a ++ [number]))
    (visible : Concrete.isComment n.kind = false) (aside : n.standsAside) :
    ∃ new, Entered source t (addNode source n m.kind slot o) (origins ++ new) ∧
      Covers t (a ++ [number] <+: ·) new := by
  have found : t.at? (a ++ [number]) = some n := (Concrete.at?_concat above number).trans child
  have below : a ++ [number] ≠ [] := by simp
  obtain ⟨new, entered, covers⟩ := allChildren_entered found here enters before
    (asidePlan_suits suits found below aside)
  refine ⟨new, ?_, covers.aside (Concrete.not_kept_of_standsAside below found aside)⟩
  rw [addNode_aside visible aside]
  exact entered

/-- Any other node is recorded with its header, if it has one, before its children. -/
theorem addNode_recorded_entered (here : t.Reached (a ++ [number]))
    (visible : Concrete.isComment n.kind = false) (stays : n.standsAside = false) :
    ∃ new, Entered source t (addNode source n m.kind slot o) (origins ++ new) ∧
      Covers t (a ++ [number] <+: ·) new := by
  have found : t.at? (a ++ [number]) = some n := (Concrete.at?_concat above number).trans child
  have below : a ++ [number] ≠ [] := by simp
  have kept : t.Kept (a ++ [number]) := .inr ⟨here, n, found, stays⟩
  have recorded := Entered.node before here above child stays suits
  have place : (origins ++ [Origin.node (a ++ [number])])[o.size]? = some (.node (a ++ [number])) := by
    rw [← before.length]
    exact List.getElem?_concat_length
  cases header : n.loopHeader? with
  | none =>
      obtain ⟨new, entered, covers⟩ := allChildren_entered found here enters recorded
        (ownPlan_suits place found below kept header)
      have unheaded := Concrete.not_headed found header
      refine ⟨_ :: new, ?_, (Covers.bare kept unheaded).below covers⟩
      rw [addNode_plain visible stays header, List.append_cons]
      exact entered
  | some parts =>
      obtain ⟨keyword, left⟩ := parts
      have headed : t.Headed (a ++ [number]) keyword left := ⟨kept, below, n, found, header⟩
      have declared := Entered.header recorded headed
      rw [before.length] at declared
      have next : (origins ++ [Origin.node (a ++ [number])] ++
          [Origin.header (a ++ [number])])[o.size + 1]? = some (.header (a ++ [number])) := by
        rw [← size_record, ← recorded.length]
        exact List.getElem?_concat_length
      obtain ⟨new, entered, covers⟩ := allChildren_entered found here enters declared
        (loopPlan_suits (getElem?_append_of_eq_some place _) next found headed)
      refine ⟨_ :: _ :: new, ?_, (Covers.headed headed).below covers⟩
      rw [addNode_loop header, List.append_cons, List.append_cons]
      exact entered

end Node

/-- Entering a node covers its region. -/
theorem addNode_entered (source : List Char) (t n : Concrete) : Enters source t n := by
  induction n with
  | node label children ih =>
      intro a number m slot o origins above child reached named before suits
      have found := (Concrete.at?_concat above number).trans child
      cases visible : Concrete.isComment (Concrete.node label children).kind with
      | true =>
          refine ⟨[], by simpa [addNode_comment visible] using before, .nil fun b inside => ?_⟩
          refine Concrete.not_kept_below (by simp) ?_ inside
          intro other same _
          cases found.symm.trans same
          exact visible
      | false =>
          have here : t.Reached (a ++ [number]) := reached.concat found named visible
          cases aside : (Concrete.node label children).standsAside with
          | true => exact addNode_aside_entered ih above child before suits here visible aside
          | false => exact addNode_recorded_entered ih above child before suits here visible aside

/-- Outlining enters what the tree keeps, from the root on. -/
theorem ofConcrete_entered (source : List Char) (t : Concrete) :
    ∃ origins, Entered source t (ofConcrete source t) origins ∧ Covers t (fun _ => True) origins := by
  have kept : t.Kept [] := .inl rfl
  have unheaded : ∀ keyword left, ¬ t.Headed [] keyword left := fun _ _ headed => headed.below rfl
  obtain ⟨new, entered, covers⟩ := allChildren_entered (show t.at? [] = some t from rfl)
    (Concrete.reached_root t) (fun child _ => addNode_entered source t child) .root
    (fun number => ⟨⟨_, Concrete.owner_of_bare kept unheaded number, rfl⟩, nofun⟩ :
      ∀ number, (Plan.slotOf ⟨⟨root, false⟩, none⟩ t.children number).Suits t ([] ++ [number]) [.node []])
  refine ⟨_ :: new, entered, ((Covers.bare kept unheaded).below covers).congr ?_⟩
  intro b _
  exact iff_of_true List.nil_prefix trivial

end Outline

end ScopeLint
