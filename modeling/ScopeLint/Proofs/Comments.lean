import ScopeLint.Placement
import ScopeLint.Proofs.Deletion
import ScopeLint.Proofs.Faithful

/-!
# Comments and the outline

Entering a tree and entering it without its comments give the same outline, as long as no comment hides
the declaration of a `declare` statement. Where one does, the statement is recorded instead of standing
aside. Deleting comments makes no node appear, so the outline without them is the smaller one then, and
the two outlines are the same exactly when nothing is hidden.
-/

namespace ScopeLint

namespace Outline

variable {source : List Char} {within : String} {slot : Slot} {plan : Plan} {o : Outline}
  {t : Concrete} {children : List Concrete}

theorem Pick.chooses_withoutComments (pick : Pick) (t : Concrete) :
    pick.chooses t.withoutComments = pick.chooses t := by
  cases pick with
  | field name => exact Concrete.fills_withoutComments t
  | firstNamed => exact Concrete.isNamed_withoutComments t

/-- Whether the child that a plan singles out is no comment. -/
def Plan.Overlooks (plan : Plan) (children : List Concrete) : Prop :=
  ∀ pick own t, plan.special = some (pick, own) → children.find? pick.chooses = some t →
    Concrete.isComment t.kind = false

namespace Plan

theorem after_of_comment (overlooks : plan.Overlooks (t :: children))
    (comment : Concrete.isComment t.kind) : plan.after t = plan := by
  unfold after
  split
  · rename_i pick own special
    refine if_neg fun chosen => ?_
    rw [overlooks pick own t special (List.find?_cons_of_pos chosen)] at comment
    cases comment
  · rfl

theorem Overlooks.after (overlooks : plan.Overlooks (t :: children)) :
    (plan.after t).Overlooks children := by
  intro pick own n special found
  unfold Plan.after at special
  split at special
  · rename_i other slot known
    split at special
    · cases special
    · rename_i unchosen
      cases known.symm.trans special
      exact overlooks pick own n known ((List.find?_cons_of_neg unchosen).trans found)
  · rename_i none
    rw [none] at special
    cases special

theorem after_withoutComments (plan : Plan) (t : Concrete) :
    plan.after t.withoutComments = plan.after t := by
  unfold after
  split
  · rw [Pick.chooses_withoutComments]
  · rfl

theorem slotOf_withoutComments (plan : Plan) (t : Concrete) (ts us : List Concrete) :
    plan.slotOf (t.withoutComments :: ts) 0 = plan.slotOf (t :: us) 0 := by
  unfold slotOf
  split
  · rename_i pick own _
    simp only [List.findIdx?_cons, Pick.chooses_withoutComments]
    split
    · rfl
    · simp
  · rfl

end Plan

/-- Whether entering a node does not depend on the comments below it. -/
def Ignores (source : List Char) (t : Concrete) : Prop :=
  ∀ within slot o, addNode source t.withoutComments within slot o = addNode source t within slot o

/-- Children are entered as if the comments among them and below them were not there. -/
theorem addChildren_withoutComments
    (ignores : ∀ child ∈ children, child.isVisible → Ignores source child)
    (overlooks : plan.Overlooks children) :
    addChildren source (Concrete.allWithoutComments children) within plan o =
      addChildren source children within plan o := by
  induction children generalizing plan o with
  | nil => rw [Concrete.allWithoutComments]
  | cons child children ih =>
      have later : ∀ child ∈ children, child.isVisible → Ignores source child :=
        fun child member => ignores child (List.mem_cons_of_mem _ member)
      rw [Concrete.allWithoutComments, addChildren_cons source child]
      split
      · rename_i comment
        have hidden : child.isVisible = false := by simp [Concrete.isVisible, comment]
        have rest := ih (o := o) later overlooks.after
        rw [Plan.after_of_comment overlooks comment] at rest ⊢
        rw [addChild_hidden hidden]
        exact rest
      · rename_i visible
        have same : ∀ slot, addChild source within slot child.withoutComments o =
            addChild source within slot child o := by
          intro slot
          unfold addChild
          rw [Concrete.isNamed_withoutComments]
          split
          · rename_i named
            refine ignores child List.mem_cons_self ?_ within slot o
            simp [Concrete.isVisible, named, visible]
          · rfl
        rw [addChildren_cons, Plan.after_withoutComments,
          Plan.slotOf_withoutComments plan child _ children, same]
        exact ih later overlooks.after

theorem asidePlan_overlooks (aside : t.standsAside) : (asidePlan slot t).Overlooks t.children := by
  intro pick own n special found
  by_cases parenthesis : t.kind = "parenthesized_expression"
  · simp [asidePlan, parenthesis] at special
  · have wraps := Concrete.wrapsDeclaration_of_standsAside aside parenthesis
    simp only [asidePlan, parenthesis, if_false, Option.some.injEq, Prod.mk.injEq] at special
    obtain ⟨rfl, rfl⟩ := special
    obtain ⟨_, d, first, declares⟩ := Concrete.wrapsDeclaration_iff.mp wraps
    cases first.symm.trans found
    exact Concrete.isComment_of_declares declares

/-- A plan that looks for a field overlooks comments that fill none. -/
theorem overlooks_of_field (bare : t.BareComments)
    (fields : ∀ pick own, plan.special = some (pick, own) → ∃ name, pick = .field name) :
    plan.Overlooks t.children := by
  intro pick own n special found
  obtain ⟨name, rfl⟩ := fields pick own special
  exact (bare.below (List.mem_of_find?_eq_some found)).visible (List.find?_some found)

theorem nodeEntry_withoutComments (bare : t.BareComments) :
    nodeEntry source within slot t.withoutComments = nodeEntry source within slot t := by
  rw [nodeEntry, nodeEntry, Concrete.outlineKind_withoutComments bare, Concrete.kind_withoutComments,
    Concrete.spanIn, Concrete.spanIn, Concrete.label_withoutComments]

theorem headerEntry_withoutComments (keyword left : Concrete) (id : Nat) :
    headerEntry source keyword.withoutComments left.withoutComments id =
      headerEntry source keyword left id := by
  rw [headerEntry, headerEntry, Concrete.textIn_withoutComments, Concrete.label_withoutComments,
    Concrete.label_withoutComments]

section Node

variable (ignores : ∀ child ∈ t.children, child.isVisible → Ignores source child)
variable (visible : Concrete.isComment t.kind = false) (shown : ¬ t.HidesDeclaration)
include ignores visible shown

theorem aside_ignores (aside : t.standsAside) : Ignores source t := by
  intro within slot o
  have visible' : Concrete.isComment t.withoutComments.kind = false := by
    rwa [Concrete.kind_withoutComments]
  have aside' := (Concrete.standsAside_withoutComments shown).trans aside
  rw [addNode_aside visible aside, addNode_aside visible' aside', Concrete.children_withoutComments,
    Concrete.kind_withoutComments, asidePlan, Concrete.kind_withoutComments]
  exact addChildren_withoutComments ignores (asidePlan_overlooks aside)

/-- A node that is recorded comes with the same entries, and its children follow the same plan. -/
theorem recorded_ignores (bare : t.BareComments) (stays : t.standsAside = false) :
    Ignores source t := by
  intro within slot o
  have visible' : Concrete.isComment t.withoutComments.kind = false := by
    rwa [Concrete.kind_withoutComments]
  have stays' := (Concrete.standsAside_withoutComments shown).trans stays
  have header' := Concrete.loopHeader?_withoutComments bare
  cases header : t.loopHeader? with
  | none =>
      rw [header, Option.map_none] at header'
      rw [addNode_plain visible stays header, addNode_plain visible' stays' header',
        Concrete.children_withoutComments, Concrete.kind_withoutComments,
        nodeEntry_withoutComments bare, ownPlan, Concrete.kind_withoutComments]
      refine addChildren_withoutComments ignores (overlooks_of_field bare ?_)
      intro pick own special
      by_cases exported : t.kind = "export_statement"
      · simp only [exported, if_true, Option.some.injEq, Prod.mk.injEq] at special
        exact ⟨_, special.1.symm⟩
      · simp [exported] at special
  | some parts =>
      obtain ⟨keyword, left⟩ := parts
      rw [header, Option.map_some] at header'
      rw [addNode_loop header, addNode_loop header', Concrete.children_withoutComments,
        Concrete.kind_withoutComments, nodeEntry_withoutComments bare, headerEntry_withoutComments]
      refine addChildren_withoutComments ignores (overlooks_of_field bare ?_)
      intro pick own special
      simp only [loopPlan, Option.some.injEq, Prod.mk.injEq] at special
      exact ⟨_, special.1.symm⟩

end Node

/-- A tree is entered as if its comments were not there, if none of them hides a declaration. -/
theorem addNode_ignores (source : List Char) (t : Concrete) (bare : t.BareComments)
    (visible : Concrete.isComment t.kind = false) (shown : ¬ t.HidesDeclaration)
    (unhidden : t.Unhidden) : Ignores source t := by
  induction t with
  | node label children ih =>
      have ignores : ∀ child ∈ children, child.isVisible → Ignores source child := by
        intro child member seen
        obtain ⟨childShown, childUnhidden⟩ := Concrete.unhidden_iff.mp unhidden child member seen
        exact ih child member (bare.below member) (Concrete.isVisible_iff.mp seen).2 childShown
          childUnhidden
      cases aside : (Concrete.node label children).standsAside with
      | true => exact aside_ignores ignores visible shown aside
      | false => exact recorded_ignores ignores visible shown bare aside

/-- The outline of a tree in which nothing is hidden is the outline of the tree without comments. -/
theorem ofConcrete_withoutComments (source : List Char) {t : Concrete} (bare : t.BareComments)
    (unhidden : t.Unhidden) : ofConcrete source t.withoutComments = ofConcrete source t := by
  rw [ofConcrete, ofConcrete, Concrete.children_withoutComments, Concrete.kind_withoutComments,
    Concrete.spanIn, Concrete.spanIn, Concrete.label_withoutComments]
  refine addChildren_withoutComments ?_ nofun
  intro child member seen
  obtain ⟨shown, below⟩ := Concrete.unhidden_iff.mp unhidden child member seen
  exact addNode_ignores source child (bare.below member) (Concrete.isVisible_iff.mp seen).2 shown below

end Outline

namespace Concrete

/-- The number of nodes that are recorded for a node alone. -/
def ownEntries (t : Concrete) : Nat :=
  if t.standsAside then 0 else if t.loopHeader?.isSome then 2 else 1

mutual

/-- The number of nodes that are recorded for a node and what is below it. -/
def entries : Concrete → Nat
  | node label children =>
      if isComment label.kind then 0 else (node label children).ownEntries + allEntries children

def allEntries : List Concrete → Nat
  | [] => 0
  | t :: ts => (if t.isNamed then t.entries else 0) + allEntries ts

end

variable {t : Concrete} {ts : List Concrete}

theorem entries_comment (comment : isComment t.kind) : t.entries = 0 := by
  obtain ⟨label, children⟩ := t
  rw [entries]
  exact if_pos comment

theorem entries_visible (visible : isComment t.kind = false) :
    t.entries = t.ownEntries + allEntries t.children := by
  obtain ⟨label, children⟩ := t
  rw [entries]
  refine if_neg ?_
  rw [Bool.not_eq_true]
  exact visible

/-- Deleting comments makes no node appear, and one disappears where a declaration was hidden. -/
theorem ownEntries_withoutComments (bare : t.BareComments) :
    t.withoutComments.ownEntries ≤ t.ownEntries ∧
      (t.withoutComments.ownEntries = t.ownEntries → ¬ t.HidesDeclaration) := by
  have header : t.withoutComments.loopHeader?.isSome = t.loopHeader?.isSome := by
    rw [loopHeader?_withoutComments bare, Option.isSome_map]
  by_cases hides : t.HidesDeclaration
  · have gone : t.withoutComments.ownEntries = 0 := if_pos hides.standsAside_withoutComments
    have there : 0 < t.ownEntries := by
      rw [ownEntries, hides.not_standsAside, if_neg Bool.false_ne_true]
      split <;> decide
    exact ⟨by omega, by omega⟩
  · rw [ownEntries, ownEntries, standsAside_withoutComments hides, header]
    exact ⟨Nat.le_refl _, fun _ => hides⟩

/-- What holds of the visible children one by one holds of them together. -/
theorem allEntries_withoutComments
    (each : ∀ child ∈ ts, child.isVisible → child.withoutComments.entries ≤ child.entries ∧
      (child.withoutComments.entries = child.entries → ¬ child.HidesDeclaration ∧ child.Unhidden)) :
    allEntries (allWithoutComments ts) ≤ allEntries ts ∧
      (allEntries (allWithoutComments ts) = allEntries ts →
        ∀ child ∈ ts, child.isVisible → ¬ child.HidesDeclaration ∧ child.Unhidden) := by
  induction ts with
  | nil =>
      rw [allWithoutComments]
      exact ⟨Nat.le_refl _, fun _ _ member => absurd member List.not_mem_nil⟩
  | cons child ts ih =>
      obtain ⟨less, same⟩ := ih fun other member => each other (List.mem_cons_of_mem _ member)
      rw [allWithoutComments, allEntries]
      by_cases visible : child.isVisible
      · obtain ⟨named, plain⟩ := isVisible_iff.mp visible
        obtain ⟨less', same'⟩ := each child List.mem_cons_self visible
        rw [plain, if_neg Bool.false_ne_true, allEntries, isNamed_withoutComments, named, if_pos rfl,
          if_pos rfl]
        refine ⟨by omega, fun equal => ?_⟩
        rw [List.forall_mem_cons]
        exact ⟨fun _ => same' (by omega), same (by omega)⟩
      · -- a token or a comment counts for nothing, whether it is deleted or not
        have nothing : (if child.isNamed then child.entries else 0) = 0 := by
          split
          · rename_i named
            exact entries_comment (by simpa [isVisible, named] using visible)
          · rfl
        have kept : allEntries (if isComment child.kind then allWithoutComments ts
            else child.withoutComments :: allWithoutComments ts) = allEntries (allWithoutComments ts) := by
          split
          · rfl
          · rename_i plain
            have token : child.isNamed = false := by simpa [isVisible, plain] using visible
            rw [allEntries, isNamed_withoutComments, token, if_neg Bool.false_ne_true, Nat.zero_add]
        rw [kept, nothing, Nat.zero_add]
        refine ⟨less, fun equal => ?_⟩
        rw [List.forall_mem_cons]
        exact ⟨fun seen => absurd seen visible, same equal⟩

theorem entries_withoutComments (t : Concrete) (bare : t.BareComments)
    (visible : isComment t.kind = false) :
    t.withoutComments.entries ≤ t.entries ∧
      (t.withoutComments.entries = t.entries → ¬ t.HidesDeclaration ∧ t.Unhidden) := by
  induction t with
  | node label children ih =>
      obtain ⟨less, same⟩ := ownEntries_withoutComments bare
      obtain ⟨below, unhidden⟩ := allEntries_withoutComments fun child member seen =>
        ih child member (bare.below member) (isVisible_iff.mp seen).2
      have parts : (node label children).children = children := rfl
      rw [entries_visible visible, entries_visible ((kind_withoutComments _).symm ▸ visible),
        children_withoutComments, parts]
      refine ⟨Nat.add_le_add less below, fun equal => ⟨same ?_, unhidden_iff.mpr (unhidden ?_)⟩⟩
      · omega
      · omega

end Concrete

namespace Outline

variable {source : List Char} {within : String} {slot : Slot} {plan : Plan} {o : Outline}
  {t : Concrete} {children : List Concrete}

theorem size_addChildren
    (each : ∀ child ∈ children, ∀ within slot o,
      (addNode source child within slot o).size = o.size + child.entries) :
    (addChildren source children within plan o).size = o.size + Concrete.allEntries children := by
  induction children generalizing plan o with
  | nil => rw [addChildren, Concrete.allEntries, Nat.add_zero]
  | cons child children ih =>
      have first : ∀ slot, (addChild source within slot child o).size =
          o.size + if child.isNamed then child.entries else 0 := by
        intro slot
        unfold addChild
        split
        · exact each child List.mem_cons_self within slot o
        · rw [Nat.add_zero]
      rw [addChildren_cons, ih fun other member => each other (List.mem_cons_of_mem _ member), first,
        Concrete.allEntries, Nat.add_assoc]

/-- Entering a tree adds as many nodes as the tree alone tells. -/
theorem size_addNode (source : List Char) (t : Concrete) (within : String) (slot : Slot)
    (o : Outline) : (addNode source t within slot o).size = o.size + t.entries := by
  induction t generalizing within slot o with
  | node label children ih =>
      have below : ∀ plan o, (addChildren source children label.kind plan o).size =
          o.size + Concrete.allEntries children := fun _ _ => size_addChildren ih
      cases visible : Concrete.isComment (Concrete.node label children).kind with
      | true => rw [addNode_comment visible, Concrete.entries_comment visible, Nat.add_zero]
      | false =>
          rw [Concrete.entries_visible visible, Concrete.ownEntries]
          cases aside : (Concrete.node label children).standsAside with
          | true =>
              rw [addNode_aside visible aside, if_pos rfl, Nat.zero_add]
              exact below _ _
          | false =>
              cases header : (Concrete.node label children).loopHeader? with
              | none =>
                  rw [addNode_plain visible aside header]
                  refine (below _ _).trans ?_
                  rw [size_record, Nat.add_assoc]
                  rfl
              | some parts =>
                  rw [addNode_loop header]
                  refine (below _ _).trans ?_
                  rw [size_record, size_record, Nat.add_assoc, Nat.add_assoc, ← Nat.add_assoc 1 1]
                  rfl

theorem size_ofConcrete (source : List Char) (t : Concrete) :
    (ofConcrete source t).size = 1 + Concrete.allEntries t.children := by
  rw [ofConcrete, size_addChildren fun child _ => size_addNode source child, size_ofRoot]

/-- If deleting the comments leaves the outline as it is, none of them hides a declaration. -/
theorem unhidden_of_ofConcrete_eq (bare : t.BareComments)
    (same : ofConcrete source t.withoutComments = ofConcrete source t) : t.Unhidden := by
  have sizes := congrArg Outline.size same
  rw [size_ofConcrete, size_ofConcrete, Concrete.children_withoutComments] at sizes
  obtain ⟨_, unhidden⟩ := Concrete.allEntries_withoutComments fun child member seen =>
    Concrete.entries_withoutComments child (bare.below member) (Concrete.isVisible_iff.mp seen).2
  exact Concrete.unhidden_iff.mpr (unhidden (Nat.add_left_cancel sizes))

/-- A tree without faults, whose comments fill no fields, has an outline with its comments and one
without them. These are the same exactly when no comment hides a declaration. -/
theorem parse_withoutComments (source : List Char) (t : Concrete) (sound : t.hasFault = false)
    (bare : t.BareComments) :
    ∃ o o', parse source t = .ok o ∧ parse source t.withoutComments = .ok o' ∧
      (o' = o ↔ t.Unhidden) := by
  have sound' := Concrete.hasFault_withoutComments t sound
  refine ⟨_, _, parse_eq_ok sound, parse_eq_ok sound', ?_⟩
  exact ⟨unhidden_of_ofConcrete_eq bare, ofConcrete_withoutComments source bare⟩

/-- The comment in the header of the loop leaves no trace. -/
theorem parse_withoutComments_sample :
    let o := ofConcrete sampleText sampleTree
    sampleTree.hasFault = false ∧ sampleTree.BareComments ∧ sampleTree.labels.length = 14 ∧
      sampleTree.withoutComments.labels.length = 13 ∧ sampleTree.Unhidden ∧
      parse sampleText sampleTree = .ok o ∧ parse sampleText sampleTree.withoutComments = .ok o := by
  intro o
  obtain ⟨_, o', parsed, parsed', same⟩ :=
    parse_withoutComments sampleText sampleTree (by decide) (by decide)
  obtain rfl : o = _ := Except.ok.inj parsed
  have equal : o' = o := by
    rw [← Except.ok.inj parsed']
    decide +kernel
  refine ⟨by decide, by decide, by decide, by decide, same.mp equal, parsed, ?_⟩
  rw [parsed', equal]

/-- `declare /* c */ var x: number;`, and `var y;` on the next line. -/
def hiddenText : List Char :=
  "declare /* c */ var x: number;\nvar y;".toList

def hiddenTree : Concrete :=
  .node ⟨"program", 0, 37, none, .named⟩
    [.node ⟨"ambient_declaration", 0, 30, none, .named⟩
      [.node ⟨"comment", 8, 15, none, .named⟩ [],
        .node ⟨"variable_declaration", 16, 30, none, .named⟩
          [.node ⟨"variable_declarator", 20, 29, none, .named⟩
            [.node ⟨"identifier", 20, 21, some "name", .named⟩ [],
              .node ⟨"type_annotation", 21, 29, some "type", .named⟩
                [.node ⟨"predefined_type", 23, 29, none, .named⟩ []]]]],
    .node ⟨"variable_declaration", 31, 37, none, .named⟩
      [.node ⟨"variable_declarator", 35, 36, none, .named⟩
        [.node ⟨"identifier", 35, 36, some "name", .named⟩ []]]]

/-- The verdicts on the `var` declarations of an outline, under the usual exemptions. -/
def varVerdicts (o : Outline) : List (Option Misplacement) :=
  (o.findAll (.declaration .var)).map fun n => Placement.verdict o {} n (o.lineage n)

/-- A comment after `declare` puts both declarations out of place: the first one is no longer directly
in the program, and the statement around it is in the way of the second. -/
theorem varVerdicts_hidden : hiddenTree.hasFault = false ∧ hiddenTree.BareComments ∧
    ∃ o o', parse hiddenText hiddenTree = .ok o ∧
      parse hiddenText hiddenTree.withoutComments = .ok o' ∧ o.size = 10 ∧ o'.size = 9 ∧
      o.varVerdicts = [some ⟨2, none⟩, some ⟨7, some 1⟩] ∧ o'.varVerdicts = [none, none] := by
  refine ⟨by decide, by decide, _, _, rfl, rfl, ?_⟩
  decide +kernel

end Outline

end ScopeLint
