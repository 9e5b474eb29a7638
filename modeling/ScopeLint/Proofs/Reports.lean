import Mathlib.Data.List.Forall2
import Mathlib.Data.List.ReduceOption
import ScopeLint.Proofs.Faithful
import ScopeLint.Proofs.Nesting
import ScopeLint.Rule

/-!
# What the rule reports

`Reported` says what becomes of one `var` declaration, from the verdict on its placement and from the
directives around it. Checking a file goes through the `var` declarations in the order of the table and
gives these outcomes. A report is on the declaration or on the export statement around it, and no two
declarations share the node that is reported.
-/

namespace ScopeLint

namespace Placement

variable {o : Outline} {e : Exemptions} {n n' : Nat} {path path' : Lineage} {m m' : Misplacement}

/-- What is reported of a declaration is the node that stands for it in its scope. -/
theorem node_of_verdict (found : verdict o e n path = some m) : m.node = (effective o n path).1 := by
  unfold verdict at found
  split at found
  · cases found
  · split at found
    · cases found
    · split at found
      · cases found
      · rename_i target scope above same
        rw [same]
        split at found
        · cases found
          rfl
        · split at found <;> cases found <;> rfl

/-- A declaration stands for itself, or is the payload of the export statement that does. -/
theorem effective_cases (o : Outline) (n : Nat) (path : Lineage) :
    (effective o n path).1 = n ∨
      o.kind (effective o n path).1 = .exported ∧ o.payload? (effective o n path).1 = some n := by
  unfold effective
  split
  · split
    · exact .inr ‹_›
    · exact .inl rfl
  · exact .inl rfl

/-- Two declarations are not reported under the same node. -/
theorem eq_of_node_eq (declares : o.kind n = .declaration .var) (declares' : o.kind n' = .declaration .var)
    (found : verdict o e n path = some m) (found' : verdict o e n' path' = some m')
    (same : m.node = m'.node) : n = n' := by
  rw [node_of_verdict found, node_of_verdict found'] at same
  have cases := effective_cases o n path
  rw [same] at cases
  rcases cases with self | ⟨exported, payload⟩ <;>
    rcases effective_cases o n' path' with self' | ⟨exported', payload'⟩
  · exact self.symm.trans self'
  · rw [self, declares] at exported'
    cases exported'
  · rw [self', declares'] at exported
    cases exported
  · rw [payload] at payload'
    cases payload'
    rfl

end Placement

namespace TopRule

variable {rule : TopRule} {file : SourceFile} {o : Outline} {n : Nat} {m : Misplacement}

/-- A finding on a misplaced declaration, with a note on what keeps it from the top if there is such
a statement. -/
structure OnMisplaced (rule : TopRule) (file : SourceFile) (o : Outline) (m : Misplacement)
    (finding : Finding) : Prop where
  code : finding.code = "HL001"
  name : finding.rule = "vars-on-top"
  severity : finding.severity = rule.severity
  location : finding.location = .ofSpan file.shown (o.span m.node)
  message : finding.message = "All 'var' declarations must be at the top of the function scope."
  help : finding.help = some (if m.blocker.isSome then
    "Move this declaration above the first non-declaration statement"
    else "Move this declaration to the top of the enclosing function or program")
  notes : finding.notes = m.blocker.toList.map fun blocker =>
    ⟨.ofSpan file.shown (o.span blocker), "first statement that is not a declaration"⟩

/-- A finding on a directive that gives no reason. -/
structure OnReason (file : SourceFile) (o : Outline) (node : Nat) (finding : Finding) : Prop where
  code : finding.code = "HL001"
  name : finding.rule = "vars-on-top"
  severity : finding.severity = .warning
  location : finding.location = .ofSpan file.shown (o.span node)
  message : finding.message = "Allow directive for 'vars-on-top' is missing required reason"
  help : finding.help = some "Add reason=\"...\" to explain why this exception is necessary"
  notes : finding.notes = []

/-- What becomes of the `var` declaration `n`. -/
inductive Reported (rule : TopRule) (file : SourceFile) (o : Outline) (n : Nat) :
    Option Finding → Prop
  | inPlace (verdict : Placement.verdict o rule.exemptions n (o.lineage n) = none) :
      Reported rule file o n none
  | denied {m : Misplacement} {finding : Finding}
      (verdict : Placement.verdict o rule.exemptions n (o.lineage n) = some m)
      (permission : Directive.permission file.text (o.span m.node).line "vars-on-top".toList = .denied)
      (reported : OnMisplaced rule file o m finding) :
      Reported rule file o n (some finding)
  | unexplained {m : Misplacement} {finding : Finding}
      (verdict : Placement.verdict o rule.exemptions n (o.lineage n) = some m)
      (permission :
        Directive.permission file.text (o.span m.node).line "vars-on-top".toList = .allowed none)
      (strict : rule.severity = .error) (reported : OnReason file o m.node finding) :
      Reported rule file o n (some finding)
  | tolerated {m : Misplacement}
      (verdict : Placement.verdict o rule.exemptions n (o.lineage n) = some m)
      (permission :
        Directive.permission file.text (o.span m.node).line "vars-on-top".toList = .allowed none)
      (lenient : rule.severity ≠ .error) :
      Reported rule file o n none
  | explained {m : Misplacement} {reason : List Char}
      (verdict : Placement.verdict o rule.exemptions n (o.lineage n) = some m)
      (permission : Directive.permission file.text (o.span m.node).line "vars-on-top".toList =
        .allowed (some reason)) :
      Reported rule file o n none

theorem misplaced_onMisplaced (rule : TopRule) (file : SourceFile) (o : Outline) (m : Misplacement) :
    OnMisplaced rule file o m (misplaced rule.severity file o m) := by
  obtain ⟨node, blocker⟩ := m
  cases blocker <;> exact ⟨rfl, rfl, rfl, rfl, rfl, rfl, rfl⟩

theorem missingReason_onReason (file : SourceFile) (o : Outline) (node : Nat) :
    OnReason file o node (missingReason file o node) :=
  ⟨rfl, rfl, rfl, rfl, rfl, rfl, rfl⟩

/-- The misplaced declarations of an outline, in the order they are visited. -/
def misplacements (o : Outline) (exemptions : Exemptions) : List Misplacement :=
  (o.visitsWhere (· = .declaration .var)).filterMap fun visit =>
    Placement.verdict o exemptions visit.node visit.lineage

theorem check_eq_filterMap (rule : TopRule) (file : SourceFile) (o : Outline) :
    rule.check file o = (misplacements o rule.exemptions).filterMap (rule.finding? file o) := by
  rw [misplacements, List.filterMap_filterMap]
  rfl

theorem mem_misplacements (linked : o.Linked) {exemptions : Exemptions} :
    m ∈ misplacements o exemptions ↔ ∃ n ∈ o.findAll (.declaration .var),
      Placement.verdict o exemptions n (o.lineage n) = some m := by
  rw [misplacements, List.mem_filterMap]
  constructor
  · rintro ⟨visit, met, verdict⟩
    obtain ⟨met, declares⟩ := List.mem_filter.mp met
    obtain ⟨inside, way⟩ := (Outline.mem_visits linked).mp met
    rw [way] at verdict
    exact ⟨visit.node, List.mem_filter.mpr ⟨List.mem_range.mpr inside, declares⟩, verdict⟩
  · rintro ⟨n, listed, verdict⟩
    obtain ⟨inside, declares⟩ := List.mem_filter.mp listed
    have met : ⟨n, o.lineage n⟩ ∈ o.visits :=
      (Outline.mem_visits linked).mpr ⟨List.mem_range.mp inside, rfl⟩
    exact ⟨_, List.mem_filter.mpr ⟨met, declares⟩, verdict⟩

/-- What the directives around a misplaced declaration say of it. -/
def permission (file : SourceFile) (o : Outline) (m : Misplacement) : Permission :=
  Directive.permission file.text (o.span m.node).line name.toList

theorem finding?_eq (rule : TopRule) (file : SourceFile) (o : Outline) (m : Misplacement) :
    rule.finding? file o m =
      match permission file o m with
      | .denied => some (misplaced rule.severity file o m)
      | .allowed none =>
          if rule.severity = .error then some (missingReason file o m.node) else none
      | .allowed (some _) => none :=
  rfl

theorem finding?_eq_some_iff {finding : Finding} : rule.finding? file o m = some finding ↔
    permission file o m = .denied ∧ misplaced rule.severity file o m = finding ∨
    permission file o m = .allowed none ∧ rule.severity = .error ∧
      missingReason file o m.node = finding := by
  rw [finding?_eq]
  rcases permission file o m with _ | _ | reason <;> simp

theorem finding?_reported (rule : TopRule) (file : SourceFile) (o : Outline) (n : Nat) :
    rule.Reported file o n
      ((Placement.verdict o rule.exemptions n (o.lineage n)).bind (rule.finding? file o)) := by
  cases verdict : Placement.verdict o rule.exemptions n (o.lineage n) with
  | none => exact .inPlace verdict
  | some m =>
      rw [Option.bind_some, finding?]
      split
      · exact .denied verdict ‹_› (misplaced_onMisplaced rule file o m)
      · split
        · exact .unexplained verdict ‹_› ‹_› (missingReason_onReason file o m.node)
        · exact .tolerated verdict ‹_› ‹_›
      · exact .explained verdict ‹_›

/-- Checking a nested outline goes through its `var` declarations in the order of the table. -/
theorem check_eq_reduceOption (linked : o.Linked) (nested : o.Nested) :
    rule.check file o = ((o.findAll (.declaration .var)).map fun n =>
      (Placement.verdict o rule.exemptions n (o.lineage n)).bind (rule.finding? file o)).reduceOption := by
  rw [check, nested.visitsWhere_eq linked, List.filterMap_map, List.reduceOption, List.filterMap_map]
  rfl

/-- Checking the outline of a tree without faults, whose bindings come first in their loops, gives for
each `var` declaration in turn what `Reported` says of it, and reports no node for two of them. -/
theorem check_reported (source : List Char) (t : Concrete) (sound : t.hasFault = false)
    (first : t.bindingsFirst) (rule : TopRule) (file : SourceFile) :
    ∃ o, Outline.parse source t = .ok o ∧
      (∃ outcomes, List.Forall₂ (rule.Reported file o) (o.findAll (.declaration .var)) outcomes ∧
        rule.check file o = outcomes.reduceOption) ∧
      ∀ n ∈ o.findAll (.declaration .var), ∀ n' ∈ o.findAll (.declaration .var), ∀ m m',
        Placement.verdict o rule.exemptions n (o.lineage n) = some m →
        Placement.verdict o rule.exemptions n' (o.lineage n') = some m' →
        m.node = m'.node → n = n' := by
  obtain ⟨_, entered, _⟩ := Outline.ofConcrete_entered source t
  have nested := Outline.ofConcrete_nested source t first
  refine ⟨_, Outline.parse_eq_ok sound, ⟨_, ?_, check_eq_reduceOption entered.linked nested⟩, ?_⟩
  · rw [List.forall₂_map_right_iff, List.forall₂_same]
    intro n _
    exact finding?_reported rule file _ n
  · intro n listed n' listed' m m' found found' same
    have declares := of_decide_eq_true (List.mem_filter.mp listed).2
    have declares' := of_decide_eq_true (List.mem_filter.mp listed').2
    exact Placement.eq_of_node_eq declares declares' found found' same

/-- The sample without exemptions: the loop declares in its header, and the exported declaration has
the loop above it. -/
theorem check_reported_sample :
    let rule : TopRule := { exemptions := ⟨false, false, false⟩ }
    let file : SourceFile := ⟨⟨[]⟩, ⟨[]⟩, Outline.sampleText, .typeScript⟩
    let o := Outline.ofConcrete Outline.sampleText Outline.sampleTree
    Outline.sampleTree.hasFault = false ∧ Outline.sampleTree.bindingsFirst ∧
      Outline.parse Outline.sampleText Outline.sampleTree = .ok o ∧
      o.findAll (.declaration .var) = [2, 7] ∧
      (∃ outcomes, List.Forall₂ (rule.Reported file o) [2, 7] outcomes ∧
        rule.check file o = outcomes.reduceOption) ∧
      ((rule.check file o).map fun finding =>
        (finding.location.line, finding.location.column, finding.notes.map (·.location.line))) =
          [(1, 6, []), (2, 1, [1])] := by
  intro rule file o
  obtain ⟨_, parsed, reported, _⟩ := check_reported Outline.sampleText Outline.sampleTree (by decide)
    (by decide) rule file
  obtain rfl : o = _ := Except.ok.inj parsed
  have declared : o.findAll (.declaration .var) = [2, 7] := by decide +kernel
  rw [declared] at reported
  exact ⟨by decide, by decide, parsed, declared, reported, by decide +kernel⟩

end TopRule

end ScopeLint
