import ScopeLint.Proofs.Cut
import ScopeLint.Proofs.Faithful

/-!
# The verdict on a declaration

In an outline every node but the root has a parent, and an export statement is never the root. So there
is always a node that stands for a declaration, and one that it stands in. The verdict depends on these
two alone: outside a scope the node is reported as it is, and in a scope the cut through the statements
decides. A `var` declaration passes only if it is exempt or on top, and what it is blocked by stands
before it and is no declaration.
-/

namespace ScopeLint

namespace Exemptions

theorem exempts_iff {e : Exemptions} {kind : Kind} :
    e.exempts kind ↔ ∃ form, kind = .loop form ∧ e.covers form := by
  cases kind <;> simp [exempts]

end Exemptions

namespace Placement

variable {o : Outline} {exemptions : Exemptions} {m : Misplacement}
variable {n e parent scope : Nat} {prologue run rest : List Nat}

/-- Whether `e` stands for the node `n`: the export statement whose payload is `n`, or else `n` itself. -/
inductive StandsFor (o : Outline) (n : Nat) : Nat → Prop
  | wrapper {parent : Nat} (link : o.parent? n = some parent) (exported : o.kind parent = .exported)
      (payload : o.payload? parent = some n) : StandsFor o n parent
  | self (unwrapped : ∀ parent, o.parent? n = some parent →
      ¬ (o.kind parent = .exported ∧ o.payload? parent = some n)) : StandsFor o n n

/-- Whether a node is a scope: a program, or a block directly below a function. -/
inductive IsScope (o : Outline) (scope : Nat) : Prop
  | program (kind : o.kind scope = .program) : IsScope o scope
  | body {function : Nat} {form : FunctionForm} (kind : o.kind scope = .block)
      (link : o.parent? scope = some function) (isFunction : o.kind function = .function form) :
      IsScope o scope

theorem parent?_lineage (linked : o.Linked) (id : Nat) : (o.lineage id).parent? = o.parent? id := by
  cases link : o.parent? id with
  | none =>
      rw [Outline.lineage, link]
      rfl
  | some parent =>
      rw [Outline.lineage_of_parent? linked link]
      rfl

theorem isScope_iff (linked : o.Linked) : isScope o scope (o.lineage scope) ↔ IsScope o scope := by
  simp only [isScope, parent?_lineage linked, Bool.or_eq_true, Bool.and_eq_true, decide_eq_true_eq]
  constructor
  · rintro (kind | ⟨kind, holds⟩)
    · exact .program kind
    · cases link : o.parent? scope with
      | none =>
          rw [link] at holds
          cases holds
      | some function =>
          rw [link] at holds
          obtain ⟨form, isFunction⟩ := isFunction_iff.mp holds
          exact .body kind link isFunction
  · rintro (kind | ⟨kind, link, isFunction⟩)
    · exact .inl kind
    · rw [link]
      exact .inr ⟨kind, isFunction_iff.mpr ⟨_, isFunction⟩⟩

theorem IsScope.statements? (isScope : IsScope o scope) :
    o.statements? scope = some (o.children scope) := by
  rcases isScope with kind | ⟨kind, _, _⟩ <;> simp [Outline.statements?, kind, Kind.holdsStatements]

/-- Every node that has a parent is stood for by a node that has one. -/
theorem exists_standsFor (linked : o.Linked) (link : o.parent? n = some parent) :
    ∃ e scope, StandsFor o n e ∧ o.parent? e = some scope := by
  by_cases wrapped : o.kind parent = .exported ∧ o.payload? parent = some n
  · have other : parent ≠ Outline.root := by
      rintro rfl
      rw [linked.root_kind] at wrapped
      cases wrapped.1
    have inside : parent < o.size :=
      Nat.lt_trans (linked.parent_lt link) (Outline.lt_size_of_parent? link)
    obtain ⟨scope, above, _⟩ := linked.parent_smaller parent other inside
    exact ⟨parent, scope, .wrapper link wrapped.1 wrapped.2, above⟩
  · refine ⟨n, parent, .self ?_, link⟩
    intro other link'
    rw [link] at link'
    cases link'
    exact wrapped

theorem effective_eq (linked : o.Linked) (stands : StandsFor o n e) (link : o.parent? e = some scope) :
    effective o n (o.lineage n) = (e, scope :: o.lineage scope) := by
  cases stands with
  | wrapper link' exported payload =>
      have way : o.lineage n = e :: scope :: o.lineage scope := by
        rw [Outline.lineage_of_parent? linked link', Outline.upward,
          Outline.lineage_of_parent? linked link]
        rfl
      rw [way]
      exact if_pos ⟨exported, payload⟩
  | self unwrapped =>
      rw [Outline.lineage_of_parent? linked link]
      exact if_neg (unwrapped scope link)

theorem verdict_exempt (linked : o.Linked) (link : o.parent? n = some parent)
    (exempt : exemptions.exempts (o.kind parent)) :
    verdict o exemptions n (o.lineage n) = none := by
  rw [Outline.lineage_of_parent? linked link]
  exact if_pos exempt

/-- What becomes of a node that is not exempt, by the node that stands for it. -/
theorem verdict_eq (linked : o.Linked) (stands : StandsFor o n e) (link : o.parent? e = some scope)
    (above : o.parent? n = some parent) (counted : exemptions.exempts (o.kind parent) = false) :
    verdict o exemptions n (o.lineage n) =
      if isScope o scope (o.lineage scope) then
        match search o e (o.children scope) with
        | .onTop => none
        | .blocked statement => some ⟨e, some statement⟩
        | .notFound => some ⟨e, none⟩
      else some ⟨e, none⟩ := by
  have way : o.lineage n = parent :: o.lineage parent := Outline.lineage_of_parent? linked above
  have stood := effective_eq linked stands link
  rw [way] at stood ⊢
  simp only [verdict, counted, stood]
  cases isScope o scope (o.lineage scope) <;> rfl

theorem verdict_apart (linked : o.Linked) (stands : StandsFor o n e) (link : o.parent? e = some scope)
    (above : o.parent? n = some parent) (counted : exemptions.exempts (o.kind parent) = false)
    (apart : ¬ IsScope o scope) : verdict o exemptions n (o.lineage n) = some ⟨e, none⟩ := by
  rw [verdict_eq linked stands link above counted, if_neg]
  rwa [isScope_iff linked]

/-- A node that is stood for in a scope has no loop above it. -/
theorem StandsFor.counted (stands : StandsFor o n e) (link : o.parent? e = some scope)
    (isScope : IsScope o scope) :
    ∃ parent, o.parent? n = some parent ∧
      ∀ exemptions : Exemptions, exemptions.exempts (o.kind parent) = false := by
  cases stands with
  | wrapper link' exported _ =>
      refine ⟨e, link', fun exemptions => ?_⟩
      rw [exported]
      rfl
  | self _ =>
      refine ⟨scope, link, fun exemptions => ?_⟩
      rcases isScope with kind | ⟨kind, _, _⟩ <;> rw [kind] <;> rfl

/-- In a scope the cut decides. -/
theorem verdict_inScope (linked : o.Linked) (stands : StandsFor o n e)
    (link : o.parent? e = some scope) (inScope : IsScope o scope)
    (cut : Cut o (o.children scope) prologue run rest) :
    verdict o exemptions n (o.lineage n) = if e ∈ run then none else some ⟨e, rest.head?⟩ := by
  obtain ⟨parent, above, counted⟩ := stands.counted link inScope
  rw [verdict_eq linked stands link above (counted exemptions), if_pos ((isScope_iff linked).mpr inScope),
    cut.search_eq]
  by_cases onTop : e ∈ run
  · rw [if_pos onTop, if_pos onTop]
  · rw [if_neg onTop, if_neg onTop]
    cases rest.head? <;> rfl

theorem StandsFor.declarationForm (stands : StandsFor o n e) {keyword : Keyword}
    (declares : o.kind n = .declaration keyword) : DeclarationForm o e := by
  cases stands with
  | wrapper _ exported payload => exact .exported exported payload declares
  | self _ => exact .bare declares

/-- In a scope a declaration passes exactly when it is on top. -/
theorem verdict_eq_none_iff (linked : o.Linked) (stands : StandsFor o n e)
    (link : o.parent? e = some scope) (inScope : IsScope o scope) (form : DeclarationForm o e) :
    verdict o exemptions n (o.lineage n) = none ↔ OnTop o (o.children scope) e := by
  obtain ⟨prologue, run, rest, cut⟩ := exists_cut o (o.children scope)
  rw [verdict_inScope linked stands link inScope cut, ← search_eq_onTop_iff form, cut.search_eq]
  by_cases onTop : e ∈ run
  · simp only [if_pos onTop]
  · rw [if_neg onTop, if_neg onTop]
    cases rest.head? <;> simp [stopAt]

theorem StandsFor.exists_parent (stands : StandsFor o n e) (link : o.parent? e = some scope) :
    ∃ parent, o.parent? n = some parent := by
  cases stands with
  | wrapper above _ _ => exact ⟨_, above⟩
  | self _ => exact ⟨_, link⟩

theorem eq_of_outside (linked : o.Linked) (stands : StandsFor o n e) (link : o.parent? e = some scope)
    (outside : ¬ IsScope o scope) (found : verdict o exemptions n (o.lineage n) = some m) :
    m = ⟨e, none⟩ := by
  obtain ⟨parent, above⟩ := stands.exists_parent link
  cases exempt : exemptions.exempts (o.kind parent) with
  | true =>
      rw [verdict_exempt linked above exempt] at found
      cases found
  | false =>
      rw [verdict_apart linked stands link above exempt outside] at found
      exact (Option.some.inj found).symm

/-- All nodes below one node are reported with the same blocker. -/
theorem exists_common_blocker (linked : o.Linked) (exemptions : Exemptions) (scope : Nat) :
    ∃ blocker, ∀ {n e m}, StandsFor o n e → o.parent? e = some scope →
      verdict o exemptions n (o.lineage n) = some m → m = ⟨e, blocker⟩ := by
  by_cases inScope : IsScope o scope
  · obtain ⟨prologue, run, rest, cut⟩ := exists_cut o (o.children scope)
    refine ⟨rest.head?, fun stands link found => ?_⟩
    rw [verdict_inScope linked stands link inScope cut] at found
    split at found <;> cases found
    rfl
  · exact ⟨none, fun stands link found => eq_of_outside linked stands link inScope found⟩

/-- What blocks a declaration in a scope stands before it and is no declaration. -/
theorem exists_blocker (linked : o.Linked) (stands : StandsFor o n e)
    (link : o.parent? e = some scope) (inScope : IsScope o scope) (form : DeclarationForm o e)
    (found : verdict o exemptions n (o.lineage n) = some m) :
    ∃ b before between after, m = ⟨e, some b⟩ ∧ ¬ DeclarationForm o b ∧
      o.children scope = before ++ b :: between ++ e :: after := by
  obtain ⟨prologue, run, rest, cut⟩ := exists_cut o (o.children scope)
  rw [verdict_inScope linked stands link inScope cut] at found
  split at found
  · cases found
  · rename_i late
    cases found
    have member : e ∈ o.children scope := (linked.mem_children scope e).mpr link
    obtain ⟨b, between, after, first, blocks, split⟩ := cut.exists_blocker form member late
    exact ⟨b, prologue ++ run, between, after, by rw [first], blocks, split⟩

theorem search_ne_notFound (form : DeclarationForm o e) {statements : List Nat}
    (member : e ∈ statements) : search o e statements ≠ .notFound := by
  obtain ⟨prologue, run, rest, cut⟩ := exists_cut o statements
  rw [cut.search_eq]
  by_cases onTop : e ∈ run
  · rw [if_pos onTop]
    exact nofun
  · obtain ⟨b, _, _, first, _⟩ := cut.exists_blocker form member onTop
    rw [if_neg onTop, first]
    exact nofun

theorem exists_parent_of_declaration (linked : o.Linked) {keyword : Keyword}
    (declares : o.kind n = .declaration keyword) : ∃ parent, o.parent? n = some parent := by
  have inside : n < o.size := by
    apply Outline.lt_size_of_kind
    rw [declares]
    exact nofun
  have other : n ≠ Outline.root := by
    rintro rfl
    rw [linked.root_kind] at declares
    cases declares
  obtain ⟨parent, link, _⟩ := linked.parent_smaller n other inside
  exact ⟨parent, link⟩

/-- The cut law. A node whose parent is not exempt is reported by the node that stands for it: without a
blocker outside any scope, and in a scope unless it is in the run, with the statement that ends the run.
So nodes reported in one scope have the same blocker, and a `var` declaration of the scope passes exactly
when it has nothing before it but a prologue and then declarations. -/
theorem verdict_cut (source : List Char) (t : Concrete) (parsed : Outline.parse source t = .ok o)
    (exemptions : Exemptions) :
    (∀ n parent, o.parent? n = some parent → exemptions.exempts (o.kind parent) = false →
      ∃ e scope, StandsFor o n e ∧ o.parent? e = some scope ∧
        (¬ IsScope o scope → verdict o exemptions n (o.lineage n) = some ⟨e, none⟩) ∧
        (IsScope o scope → ∃ prologue run rest, Cut o (o.children scope) prologue run rest ∧
          verdict o exemptions n (o.lineage n) = if e ∈ run then none else some ⟨e, rest.head?⟩)) ∧
    (∀ n n' e e' scope m m', StandsFor o n e → StandsFor o n' e' →
      o.parent? e = some scope → o.parent? e' = some scope →
      verdict o exemptions n (o.lineage n) = some m →
      verdict o exemptions n' (o.lineage n') = some m' → m.blocker = m'.blocker) ∧
    ∀ n e scope, o.kind n = .declaration .var → StandsFor o n e → o.parent? e = some scope →
      IsScope o scope →
      (verdict o exemptions n (o.lineage n) = none ↔ OnTop o (o.children scope) e) := by
  have linked := Outline.linked_of_parse parsed
  refine ⟨?_, ?_, ?_⟩
  · intro n parent above counted
    obtain ⟨e, scope, stands, link⟩ := exists_standsFor linked above
    refine ⟨e, scope, stands, link, verdict_apart linked stands link above counted, fun inScope => ?_⟩
    obtain ⟨prologue, run, rest, cut⟩ := exists_cut o (o.children scope)
    exact ⟨prologue, run, rest, cut, verdict_inScope linked stands link inScope cut⟩
  · intro n n' e e' scope m m' stands stands' link link' found found'
    obtain ⟨blocker, common⟩ := exists_common_blocker linked exemptions scope
    rw [common stands link found, common stands' link' found']
  · intro n e scope declares stands link inScope
    exact verdict_eq_none_iff linked stands link inScope (stands.declarationForm declares)

/-- The exported declaration of the sample, with nothing exempt: the loop before it is in the way. -/
theorem verdict_cut_sample :
    let o := Outline.ofConcrete Outline.sampleText Outline.sampleTree
    let exemptions : Exemptions := ⟨false, false, false⟩
    Outline.parse Outline.sampleText Outline.sampleTree = .ok o ∧ o.parent? 7 = some 6 ∧
      exemptions.exempts (o.kind 6) = false ∧ verdict o exemptions 7 (o.lineage 7) = some ⟨6, some 1⟩ ∧
      ∃ e scope, StandsFor o 7 e ∧ o.parent? e = some scope ∧
        (¬ IsScope o scope → verdict o exemptions 7 (o.lineage 7) = some ⟨e, none⟩) ∧
        (IsScope o scope → ∃ prologue run rest, Cut o (o.children scope) prologue run rest ∧
          verdict o exemptions 7 (o.lineage 7) = if e ∈ run then none else some ⟨e, rest.head?⟩) :=
  ⟨rfl, by decide +kernel, by decide +kernel, by decide +kernel,
    (verdict_cut Outline.sampleText Outline.sampleTree rfl _).1 7 6 (by decide +kernel) (by decide +kernel)⟩

/-- A `var` declaration always has a parent, and a node stands for it below some other node. It passes
only if its parent is an exempt loop, or if it is on top of a scope. It is reported without a blocker
exactly outside any scope; a blocker is an earlier statement of the scope and no declaration. -/
theorem var_verdict_honest (source : List Char) (t : Concrete)
    (parsed : Outline.parse source t = .ok o) (exemptions : Exemptions)
    (declares : o.kind n = .declaration .var) :
    ∃ parent e scope, o.parent? n = some parent ∧ StandsFor o n e ∧ o.parent? e = some scope ∧
      effective o n (o.lineage n) = (e, scope :: o.lineage scope) ∧
      (IsScope o scope → o.statements? scope = some (o.children scope) ∧
        search o e (o.children scope) ≠ .notFound) ∧
      (verdict o exemptions n (o.lineage n) = none ↔
        (∃ form, o.kind parent = .loop form ∧ exemptions.covers form) ∨
          IsScope o scope ∧ OnTop o (o.children scope) e) ∧
      ∀ m, verdict o exemptions n (o.lineage n) = some m →
        m.node = e ∧ (m.blocker = none ↔ ¬ IsScope o scope) ∧
        ∀ b, m.blocker = some b → b ≠ m.node ∧ ¬ DeclarationForm o b ∧
          ∃ before between after, o.children scope = before ++ b :: between ++ m.node :: after := by
  have linked := Outline.linked_of_parse parsed
  obtain ⟨parent, above⟩ := exists_parent_of_declaration linked declares
  obtain ⟨e, scope, stands, link⟩ := exists_standsFor linked above
  have form : DeclarationForm o e := stands.declarationForm declares
  have member : e ∈ o.children scope := (linked.mem_children scope e).mpr link
  refine ⟨parent, e, scope, above, stands, link, effective_eq linked stands link,
    fun inScope => ⟨inScope.statements?, search_ne_notFound form member⟩, ?_, ?_⟩
  · rw [← Exemptions.exempts_iff]
    by_cases inScope : IsScope o scope
    · obtain ⟨parent', above', counted⟩ := stands.counted link inScope
      rw [above] at above'
      cases above'
      rw [verdict_eq_none_iff linked stands link inScope form, counted exemptions]
      simp [inScope]
    · cases exempt : exemptions.exempts (o.kind parent) with
      | true => simp [verdict_exempt linked above exempt]
      | false => simp [verdict_apart linked stands link above exempt inScope, inScope]
  · intro m found
    by_cases inScope : IsScope o scope
    · obtain ⟨b, before, between, after, rfl, blocks, split⟩ :=
        exists_blocker linked stands link inScope form found
      refine ⟨rfl, by simp [inScope], ?_⟩
      rintro _ ⟨⟩
      refine ⟨?_, blocks, before, between, after, split⟩
      rintro rfl
      exact blocks form
    · rw [eq_of_outside linked stands link inScope found]
      exact ⟨rfl, by simp [inScope], nofun⟩

/-- The exported declaration of the sample is blocked by the loop, which is the statement before it. -/
theorem var_verdict_honest_sample :
    let o := Outline.ofConcrete Outline.sampleText Outline.sampleTree
    let exemptions : Exemptions := {}
    Outline.parse Outline.sampleText Outline.sampleTree = .ok o ∧ o.kind 7 = .declaration .var ∧
      verdict o exemptions 7 (o.lineage 7) = some ⟨6, some 1⟩ ∧
      ∃ parent e scope, o.parent? 7 = some parent ∧ StandsFor o 7 e ∧ o.parent? e = some scope ∧
        effective o 7 (o.lineage 7) = (e, scope :: o.lineage scope) ∧
        (IsScope o scope → o.statements? scope = some (o.children scope) ∧
          search o e (o.children scope) ≠ .notFound) ∧
        (verdict o exemptions 7 (o.lineage 7) = none ↔
          (∃ form, o.kind parent = .loop form ∧ exemptions.covers form) ∨
            IsScope o scope ∧ OnTop o (o.children scope) e) ∧
        ∀ m, verdict o exemptions 7 (o.lineage 7) = some m →
          m.node = e ∧ (m.blocker = none ↔ ¬ IsScope o scope) ∧
          ∀ b, m.blocker = some b → b ≠ m.node ∧ ¬ DeclarationForm o b ∧
            ∃ before between after, o.children scope = before ++ b :: between ++ m.node :: after :=
  ⟨rfl, by decide +kernel, by decide +kernel,
    var_verdict_honest Outline.sampleText Outline.sampleTree rfl _ (by decide +kernel)⟩

end Placement

end ScopeLint
