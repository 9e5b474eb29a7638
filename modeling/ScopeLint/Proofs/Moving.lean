import ScopeLint.Proofs.Verdicts

/-!
# Moving a declaration up

The help on a blocked declaration says to move it above the statement that blocks it. After the move the
cut through the statements has the same prologue, the declaration is the last one of the run, and the run
ends at the same statement. So the declaration is on top, and what is found for any other statement is
what was found before. In an outline whose scope is rearranged in this way, the verdict on that one
declaration is the only one that changes.
-/

namespace ScopeLint

namespace Outline

variable {o : Outline} {id other : Nat} {children : List Nat}

/-- The outline in which a node has the given children. -/
def setChildren (o : Outline) (id : Nat) (children : List Nat) : Outline :=
  ⟨o.nodes.modify id fun node => { node with children := children.toArray }⟩

@[simp] theorem size_setChildren (o : Outline) (id : Nat) (children : List Nat) :
    (o.setChildren id children).size = o.size := by
  simp [size, setChildren]

theorem node?_setChildren (o : Outline) (id other : Nat) (children : List Nat) :
    (o.setChildren id children).node? other =
      if other = id then (o.node? other).map fun node => { node with children := children.toArray }
      else o.node? other := by
  simp only [node?, setChildren, Array.getElem?_modify]
  by_cases same : other = id
  · simp only [same, if_true]
  · simp only [same, Ne.symm same, if_false]

@[simp] theorem kind_setChildren (o : Outline) (id other : Nat) (children : List Nat) :
    (o.setChildren id children).kind other = o.kind other := by
  rw [kind_eq_getD, node?_setChildren, kind_eq_getD]
  split
  · rw [Option.map_map]
    rfl
  · rfl

@[simp] theorem parent?_setChildren (o : Outline) (id other : Nat) (children : List Nat) :
    (o.setChildren id children).parent? other = o.parent? other := by
  rw [parent?_eq_getD, node?_setChildren, parent?_eq_getD]
  split
  · rw [Option.map_map]
    rfl
  · rfl

@[simp] theorem payload?_setChildren (o : Outline) (id other : Nat) (children : List Nat) :
    (o.setChildren id children).payload? other = o.payload? other := by
  rw [payload?, node?_setChildren, payload?]
  split
  · cases o.node? other <;> rfl
  · rfl

theorem children_setChildren (inside : id < o.size) (other : Nat) :
    (o.setChildren id children).children other = if other = id then children else o.children other := by
  rw [Outline.children, node?_setChildren]
  by_cases same : other = id
  · obtain ⟨node, found⟩ := exists_node? inside
    rw [if_pos same, if_pos same, same, found]
    rfl
  · rw [if_neg same, if_neg same]
    rfl

/-- The way up goes by the parent links, which stay as they are. -/
theorem lineage_setChildren (o : Outline) (id : Nat) (children : List Nat) (other : Nat) :
    (o.setChildren id children).lineage other = o.lineage other := by
  by_cases inside : other < o.size
  · have extended : o.Extends (o.setChildren id children) :=
      ⟨by simp, fun x _ => kind_setChildren o id x children, fun x _ => parent?_setChildren o id x children⟩
    exact extended.lineage inside
  · have top := parent?_eq_none (Nat.le_of_not_lt inside)
    rw [lineage, parent?_setChildren, top, lineage, top]

end Outline

namespace Placement

variable {o : Outline} {statements prologue run rest before between after : List Nat}
variable {target b d e n scope parent : Nat} {exemptions : Exemptions}

/-- The statements with `target` taken out and put back directly before `b`. -/
def moveBefore (target b : Nat) (statements : List Nat) : List Nat :=
  let others := statements.erase target
  others.takeWhile (· != b) ++ target :: others.dropWhile (· != b)

theorem erase_target (distinct : (before ++ b :: between ++ target :: after).Nodup) :
    (before ++ b :: between ++ target :: after).erase target = before ++ b :: (between ++ after) := by
  have apart : target ∉ before ++ b :: between := by
    intro member
    exact (List.nodup_append.mp distinct).2.2 target member target List.mem_cons_self rfl
  rw [List.erase_append_right _ apart, List.erase_cons_head, List.append_assoc, List.cons_append]

/-- A statement behind `b` that is moved before it stands between it and what comes before `b`. -/
theorem moveBefore_eq (distinct : (before ++ b :: between ++ target :: after).Nodup) :
    moveBefore target b (before ++ b :: between ++ target :: after) =
      before ++ target :: b :: (between ++ after) := by
  have unlike : ∀ s ∈ before, (s != b) = true := by
    intro s member
    rw [List.append_assoc] at distinct
    exact bne_iff_ne.mpr ((List.nodup_append.mp distinct).2.2 s member b List.mem_cons_self)
  rw [moveBefore, erase_target distinct, List.takeWhile_append_of_pos unlike,
    List.dropWhile_append_of_pos unlike]
  simp

/-- A declaration that is blocked stands behind the run, and the blocker ends the run. -/
theorem exists_cut_of_blocked (form : DeclarationForm o target) (member : target ∈ statements)
    (blocked : search o target statements = .blocked b) :
    ∃ prologue run between after, target ∉ run ∧
      Cut o statements prologue run (b :: (between ++ target :: after)) := by
  obtain ⟨prologue, run, rest, cut⟩ := exists_cut o statements
  have late : target ∉ run := by
    intro inRun
    rw [cut.search_eq, if_pos inRun] at blocked
    cases blocked
  obtain ⟨b', between, after, first, _, split⟩ := cut.exists_blocker form member late
  obtain rfl : b' = b := by
    rw [cut.search_eq, if_neg late, first] at blocked
    exact Search.blocked.inj blocked
  have parts : rest = b' :: (between ++ target :: after) := by
    have whole := cut.parts.symm.trans split
    simpa only [List.append_assoc, List.append_cancel_left_eq, List.cons_append] using whole
  exact ⟨prologue, run, between, after, late, parts ▸ cut⟩

/-- The cut after the move: the declaration has joined the run, which ends where it did. -/
theorem Cut.moved (cut : Cut o statements prologue run (b :: (between ++ target :: after)))
    (form : DeclarationForm o target) (distinct : statements.Nodup) :
    Cut o (moveBefore target b statements) prologue (run ++ [target]) (b :: (between ++ after)) where
  parts := by
    have parts : statements = prologue ++ run ++ b :: between ++ target :: after := by
      simpa using cut.parts
    rw [parts] at distinct ⊢
    rw [moveBefore_eq distinct]
    simp
  prologue := cut.prologue
  prologue_ends := by
    -- with an empty run the declaration comes directly after the prologue, and it is no part of it
    cases run with
    | nil =>
        rintro s ⟨⟩
        exact form.not_inPrologue
    | cons first run =>
        rintro s ⟨⟩
        exact (cut.run first List.mem_cons_self).not_inPrologue
  run := by
    intro s member
    obtain inRun | isTarget := List.mem_append.mp member
    · exact cut.run s inRun
    · rw [List.mem_singleton.mp isTarget]
      exact form
  run_ends := by
    rintro s ⟨⟩
    exact cut.run_ends b rfl

/-- Moving a blocked declaration before its blocker puts it on top, and changes nothing for others. -/
theorem search_moveBefore (form : DeclarationForm o target) (member : target ∈ statements)
    (distinct : statements.Nodup) (blocked : search o target statements = .blocked b) (d : Nat) :
    search o d (moveBefore target b statements) =
      if d = target then .onTop else search o d statements := by
  obtain ⟨prologue, run, between, after, _, cut⟩ := exists_cut_of_blocked form member blocked
  rw [(cut.moved form distinct).search_eq, cut.search_eq]
  by_cases same : d = target
  · simp [same]
  · simp [same]

/-- The move keeps the order of all other statements. -/
theorem moveBefore_rearranges (form : DeclarationForm o target) (member : target ∈ statements)
    (distinct : statements.Nodup) (blocked : search o target statements = .blocked b) :
    (moveBefore target b statements).Perm statements ∧
      (moveBefore target b statements).erase target = statements.erase target ∧
      [target, b] <:+: moveBefore target b statements := by
  obtain ⟨prologue, run, between, after, _, cut⟩ := exists_cut_of_blocked form member blocked
  have parts : statements = prologue ++ run ++ b :: between ++ target :: after := by
    simpa using cut.parts
  subst parts
  rw [moveBefore_eq distinct, erase_target distinct]
  have apart : target ∉ prologue ++ run := by
    intro early
    refine (List.nodup_append.mp distinct).2.2 target ?_ target List.mem_cons_self rfl
    exact List.mem_append_left _ early
  refine ⟨?_, ?_, ?_⟩
  · have swapped : (target :: (b :: between ++ after)).Perm (b :: between ++ target :: after) :=
      List.perm_middle.symm
    simpa only [List.append_assoc, List.cons_append] using swapped.append_left (prologue ++ run)
  · rw [List.erase_append_right _ apart, List.erase_cons_head]
  · exact ⟨prologue ++ run, between ++ after, by simp⟩

section Rearranged

variable {moved : List Nat}

theorem IsScope.lt_size (inScope : IsScope o scope) : scope < o.size := by
  apply Outline.lt_size_of_kind
  obtain kind | ⟨kind, _, _⟩ := inScope <;> rw [kind] <;> exact nofun

theorem IsScope.kind_ne (inScope : IsScope o scope) : o.kind scope ≠ .expressionStatement := by
  obtain kind | ⟨kind, _, _⟩ := inScope <;> rw [kind] <;> exact nofun

/-- A statement is searched for in the same way whatever stands in a scope. -/
theorem search_setChildren (inScope : IsScope o scope) (d : Nat) (statements : List Nat) :
    search (o.setChildren scope moved) d statements = search o d statements := by
  have prologue : isPrologue (o.setChildren scope moved) = isPrologue o := by
    funext s
    have expression : (o.setChildren scope moved).expression? s = o.expression? s := by
      rw [Outline.expression?, Outline.expression?, Outline.kind_setChildren,
        Outline.children_setChildren inScope.lt_size]
      by_cases same : s = scope
      · rw [same, if_neg inScope.kind_ne, if_neg inScope.kind_ne]
      · rw [if_neg same]
    rw [isPrologue, isPrologue, isDirective, isDirective, expression]
    simp
  have declaring : declares (o.setChildren scope moved) = declares o := by
    funext s
    simp [declares]
  rw [search, search, prologue]
  induction statements.dropWhile (isPrologue o) with
  | nil => rfl
  | cons s rest ih => rw [searchRun, searchRun, declaring, ih]

theorem effective_setChildren (n : Nat) (path : Lineage) :
    effective (o.setChildren scope moved) n path = effective o n path := by
  unfold effective
  simp

theorem isScope_setChildren (id : Nat) (above : Lineage) :
    isScope (o.setChildren scope moved) id above = isScope o id above := by
  simp [isScope]

/-- What is reported of the node `e` in a scope, from the search for it. -/
def reportOn (e : Nat) : Search → Option Misplacement
  | .onTop => none
  | .blocked statement => some ⟨e, some statement⟩
  | .notFound => some ⟨e, none⟩

theorem verdict_eq_reportOn (linked : o.Linked) {other : Nat} (stands : StandsFor o n e)
    (link : o.parent? e = some other) (above : o.parent? n = some parent)
    (counted : exemptions.exempts (o.kind parent) = false) :
    verdict o exemptions n (o.lineage n) =
      if isScope o other (o.lineage other) then reportOn e (search o e (o.children other))
      else some ⟨e, none⟩ := by
  rw [verdict_eq linked stands link above counted]
  cases search o e (o.children other) <;> rfl

/-- The verdict in an outline with a rearranged scope comes from a search in the new list. -/
theorem verdict_setChildren (linked : o.Linked) (inScope : IsScope o scope) {other : Nat}
    (stands : StandsFor o n e) (link : o.parent? e = some other) (above : o.parent? n = some parent)
    (counted : exemptions.exempts (o.kind parent) = false) :
    verdict (o.setChildren scope moved) exemptions n (o.lineage n) =
      if isScope o other (o.lineage other) then
        reportOn e (search o e (if other = scope then moved else o.children other))
      else some ⟨e, none⟩ := by
  have way : o.lineage n = parent :: o.lineage parent := Outline.lineage_of_parent? linked above
  have stood := effective_eq linked stands link
  rw [way] at stood ⊢
  simp only [verdict, Outline.kind_setChildren, counted, effective_setChildren, stood,
    isScope_setChildren, search_setChildren inScope, Outline.children_setChildren inScope.lt_size]
  cases isScope o other (o.lineage other) with
  | false => rfl
  | true => cases search o e (if other = scope then moved else o.children other) <;> rfl

/-- A verdict stays the same, if searching for what stands for the node finds the same in both lists. -/
theorem verdict_setChildren_of_search (linked : o.Linked) (inScope : IsScope o scope)
    (same : ∀ e, StandsFor o n e → search o e moved = search o e (o.children scope)) :
    verdict (o.setChildren scope moved) exemptions n (o.lineage n) =
      verdict o exemptions n (o.lineage n) := by
  cases above : o.parent? n with
  | none =>
      rw [Outline.lineage, above]
      rfl
  | some parent =>
      cases exempt : exemptions.exempts (o.kind parent) with
      | true =>
          rw [verdict_exempt linked above exempt, Outline.lineage_of_parent? linked above]
          refine if_pos ?_
          rw [Outline.kind_setChildren]
          exact exempt
      | false =>
          obtain ⟨e, other, stands, link⟩ := exists_standsFor linked above
          rw [verdict_setChildren linked inScope stands link above exempt,
            verdict_eq_reportOn linked stands link above exempt]
          by_cases here : other = scope
          · rw [if_pos here, here, same e stands]
          · rw [if_neg here]

end Rearranged

/-- Following the help removes one report and adds none. Moving a blocked declaration directly before its
blocker, the order of all other statements being kept, puts it on top; what was on top stays there, and
what had the same blocker keeps it. When the statements of a scope of an outline are rearranged in this
way, what stands for the declaration is no longer reported, and all other verdicts are as they were. -/
theorem moveBefore_resolves (o : Outline) (statements : List Nat) (distinct : statements.Nodup)
    (form : DeclarationForm o target) (member : target ∈ statements)
    (blocked : search o target statements = .blocked b) :
    let moved := moveBefore target b statements
    (moved.Perm statements ∧ moved.erase target = statements.erase target ∧ [target, b] <:+: moved) ∧
    search o target moved = .onTop ∧
    (∀ d, search o d statements = .onTop → search o d moved = .onTop) ∧
    (∀ d, d ≠ target → search o d statements = .blocked b → search o d moved = .blocked b) ∧
    ∀ scope, o.Linked → IsScope o scope → o.children scope = statements →
      let o' := o.setChildren scope moved
      ∀ exemptions n,
        (StandsFor o n target →
          verdict o exemptions n (o.lineage n) = some ⟨target, some b⟩ ∧
          verdict o' exemptions n (o'.lineage n) = none) ∧
        (¬ StandsFor o n target →
          verdict o' exemptions n (o'.lineage n) = verdict o exemptions n (o.lineage n)) := by
  have found := search_moveBefore form member distinct blocked
  refine ⟨moveBefore_rearranges form member distinct blocked, ?_, ?_, ?_, ?_⟩
  · rw [found, if_pos rfl]
  · intro d onTop
    rw [found, onTop, ite_self]
  · intro d other held
    rw [found, if_neg other, held]
  · rintro scope linked inScope rfl o' exemptions n
    have link : o.parent? target = some scope := (linked.mem_children scope target).mp member
    have way : o'.lineage n = o.lineage n := Outline.lineage_setChildren o scope _ n
    rw [way]
    constructor
    · intro stands
      obtain ⟨parent, above, counted⟩ := stands.counted link inScope
      have inside := (isScope_iff linked).mpr inScope
      constructor
      · rw [verdict_eq_reportOn linked stands link above (counted exemptions), if_pos inside, blocked]
        rfl
      · rw [verdict_setChildren linked inScope stands link above (counted exemptions), if_pos inside,
          if_pos rfl, found, if_pos rfl]
        rfl
    · intro others
      refine verdict_setChildren_of_search linked inScope fun e stands => ?_
      rw [found, if_neg]
      rintro rfl
      exact others stands

/-- `"use strict"; f(); var a; var b;` -/
def lateText : List Char :=
  "\"use strict\"; f(); var a; var b;".toList

def lateTree : Concrete :=
  .node ⟨"program", 0, 32, none, .named⟩
    [.node ⟨"expression_statement", 0, 13, none, .named⟩
      [.node ⟨"string", 0, 12, none, .named⟩ [.node ⟨"string_fragment", 1, 11, none, .named⟩ []]],
    .node ⟨"expression_statement", 14, 18, none, .named⟩
      [.node ⟨"call_expression", 14, 17, none, .named⟩
        [.node ⟨"identifier", 14, 15, some "function", .named⟩ [],
          .node ⟨"arguments", 15, 17, some "arguments", .named⟩ []]],
    .node ⟨"variable_declaration", 19, 25, none, .named⟩
      [.node ⟨"variable_declarator", 23, 24, none, .named⟩
        [.node ⟨"identifier", 23, 24, some "name", .named⟩ []]],
    .node ⟨"variable_declaration", 26, 32, none, .named⟩
      [.node ⟨"variable_declarator", 30, 31, none, .named⟩
        [.node ⟨"identifier", 30, 31, some "name", .named⟩ []]]]

/-- The second `var` moves between the directive and the call, and the first one stays blocked. -/
theorem moveBefore_resolves_late :
    let o := Outline.ofConcrete lateText lateTree
    let moved := moveBefore 11 4 (o.children 0)
    let o' := o.setChildren 0 moved
    o.children 0 = [1, 4, 8, 11] ∧ moved = [1, 11, 4, 8] ∧ (o.children 0).Nodup ∧
      DeclarationForm o 11 ∧ search o 11 (o.children 0) = .blocked 4 ∧ search o 11 moved = .onTop ∧
      verdict o {} 8 (o.lineage 8) = some ⟨8, some 4⟩ ∧
      verdict o' {} 8 (o'.lineage 8) = verdict o {} 8 (o.lineage 8) ∧
      verdict o {} 11 (o.lineage 11) = some ⟨11, some 4⟩ ∧ verdict o' {} 11 (o'.lineage 11) = none := by
  intro o moved o'
  have statements : o.children 0 = [1, 4, 8, 11] := by decide +kernel
  have distinct : (o.children 0).Nodup := by
    rw [statements]
    decide
  have form : DeclarationForm o 11 := .bare (show o.kind 11 = .declaration .var by decide +kernel)
  have member : 11 ∈ o.children 0 := by
    rw [statements]
    decide
  have blocked : search o 11 (o.children 0) = .blocked 4 := by decide +kernel
  have linked : o.Linked :=
    Outline.linked_of_parse (show Outline.parse lateText lateTree = .ok o from Outline.parse_eq_ok (by decide))
  have other : ¬ StandsFor o 8 11 := by
    rintro ⟨link, _, _⟩
    exact absurd link (by decide +kernel)
  have itself : StandsFor o 11 11 := by
    refine .self fun parent link wrapped => ?_
    cases (show o.parent? 11 = some 0 by decide +kernel).symm.trans link
    exact absurd wrapped.1 (by decide +kernel)
  obtain ⟨_, onTop, _, _, rearranged⟩ := moveBefore_resolves o (o.children 0) distinct form member blocked
  have verdicts := rearranged 0 linked (.program (by decide +kernel)) rfl {}
  obtain ⟨reported, resolved⟩ := (verdicts 11).1 itself
  exact ⟨statements, by decide +kernel, distinct, form, blocked, onTop, by decide +kernel,
    (verdicts 8).2 other, reported, resolved⟩

end Placement

end ScopeLint
