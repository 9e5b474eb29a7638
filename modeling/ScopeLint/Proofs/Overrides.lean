import ScopeLint.Linter
import ScopeLint.Proofs.Reports

/-!
# Severities that a configuration sets

The severity in the table of a rule reaches its findings twice: the rule is made with it, and the linter
gives it to the findings that have the severity of their rule. For a rule made from the configuration the
second step does nothing. For the rule at its default severity it does all of the work, and it leaves the
findings that ask for a reason alone. The two ways differ only in these: the rule itself asks for reasons
only where it is an error to break it.
-/

namespace ScopeLint

/-- Whether a finding asks for the reason of a directive. -/
def Finding.asksReason (finding : Finding) : Bool :=
  finding.message = "Allow directive for 'vars-on-top' is missing required reason"

/-- The exemptions that a configuration states. -/
def Configuration.exemptions (c : Configuration) : Except ConfigurationError Exemptions :=
  match c.ruleSettings? TopRule.name with
  | none => .ok {}
  | some settings => (settings.exemptions TopRule.name).map ({} : Exemptions).change

namespace TopRule

variable {rule : TopRule} {severity : Severity} {file : SourceFile} {o : Outline} {e : Exemptions}

/-- The rule as a configuration sets it, given the exemptions that it states. -/
def configured (c : Configuration) (exemptions : Exemptions) : TopRule :=
  { exemptions, severity := (c.severity? name).getD .error }

theorem configuredRules_eq {c : Configuration} (valid : c.exemptions = .ok e) :
    c.configuredRules = .ok [(configured c e).toRule] := by
  rw [Configuration.exemptions] at valid
  rw [configured, Configuration.severity?, Configuration.configuredRules]
  cases found : c.ruleSettings? name with
  | none =>
      rw [found] at valid
      cases valid
      rfl
  | some settings =>
      simp only [found] at valid
      simp only [ofSettings]
      cases stated : settings.exemptions name with
      | ok changes =>
          rw [stated] at valid
          cases valid
          rfl
      | error cause =>
          rw [stated] at valid
          cases valid

/-- What is reported of a misplaced declaration at some severity, if directives always have to give a
reason. -/
def report? (severity : Severity) (file : SourceFile) (o : Outline) (m : Misplacement) : Option Finding :=
  match permission file o m with
  | .denied => some (misplaced severity file o m)
  | .allowed none => some (missingReason file o m.node)
  | .allowed (some _) => none

/-- What is reported in a file at some severity, if directives always have to give a reason. -/
def reports (severity : Severity) (exemptions : Exemptions) (file : SourceFile) (o : Outline) :
    List Finding :=
  (misplacements o exemptions).filterMap (report? severity file o)

theorem asksReason_misplaced (severity : Severity) (file : SourceFile) (o : Outline) (m : Misplacement) :
    (misplaced severity file o m).asksReason = false := by
  rw [Finding.asksReason, (misplaced_onMisplaced { severity } file o m).message]
  decide

theorem asksReason_missingReason (file : SourceFile) (o : Outline) (node : Nat) :
    (missingReason file o node).asksReason = true :=
  rfl

theorem mem_reports {finding : Finding} (member : finding ∈ reports severity e file o) :
    finding.message = message ∧ finding.severity = severity ∨
      finding.asksReason ∧ finding.severity = .warning := by
  obtain ⟨m, -, reported⟩ := List.mem_filterMap.mp member
  rw [report?] at reported
  split at reported
  · obtain rfl := Option.some.inj reported
    have on := misplaced_onMisplaced { severity } file o m
    exact .inl ⟨on.message, on.severity⟩
  · obtain rfl := Option.some.inj reported
    exact .inr ⟨asksReason_missingReason file o m.node, rfl⟩
  · cases reported

/-- A rule that it is an error to break asks for all reasons. -/
theorem check_of_error (strict : rule.severity = .error) :
    rule.check file o = reports rule.severity rule.exemptions file o := by
  have same : rule.finding? file o = report? rule.severity file o := by
    funext m
    rw [finding?_eq, report?]
    rcases permission file o m with _ | _ | reason
    · rfl
    · exact if_pos strict
    · rfl
  rw [check_eq_filterMap, reports, same]

/-- Any other rule asks for none. -/
theorem check_of_lenient (lenient : rule.severity ≠ .error) :
    rule.check file o = (reports rule.severity rule.exemptions file o).filter (!·.asksReason) := by
  have same : ∀ m, rule.finding? file o m =
      (report? rule.severity file o m).filter (!·.asksReason) := by
    intro m
    rw [finding?_eq, report?]
    rcases permission file o m with _ | _ | reason
    · exact (Option.filter_some_pos (by simp [asksReason_misplaced])).symm
    · rw [Option.filter_some_neg (by simp [asksReason_missingReason])]
      exact if_neg lenient
    · rfl
  rw [check_eq_filterMap, reports, List.filter_filterMap]
  exact congrArg (List.filterMap · _) (funext same)

/-- How the findings `a` of the rule as it is configured and the findings `b` of the rule at its default
severity relate, both as a linter gives them, when the configuration sets the given severity. -/
structure SameButReasons (given : Option Severity) (a b : List Finding) : Prop where
  severity : ∀ finding ∈ a ++ b,
    finding.message = "All 'var' declarations must be at the top of the function scope." ∧
      finding.severity = given.getD .error ∨
    finding.asksReason ∧ finding.severity = .warning
  same : given = none ∨ given = some .error → a = b
  unasked : ∀ severity, given = some severity → severity ≠ .error →
    (∀ finding ∈ a, ¬ finding.asksReason) ∧ a = b.filter (!·.asksReason)

theorem check_sublist (rule : TopRule) (file : SourceFile) (o : Outline) :
    (rule.check file o).Sublist (reports rule.severity rule.exemptions file o) := by
  by_cases strict : rule.severity = .error
  · exact check_of_error strict ▸ List.Sublist.refl _
  · exact check_of_lenient strict ▸ List.filter_sublist

theorem check_sameButReasons (given : Option Severity) (e : Exemptions) (file : SourceFile) (o : Outline) :
    let rule : TopRule := { exemptions := e, severity := given.getD .error }
    SameButReasons given (rule.check file o) (reports rule.severity e file o) := by
  intro rule
  constructor
  · intro finding member
    rcases List.mem_append.mp member with member | member
    · exact mem_reports ((check_sublist rule file o).subset member)
    · exact mem_reports member
  · intro absent
    have strict : rule.severity = .error := by
      rcases absent with absent | absent <;> exact congrArg (·.getD .error) absent
    exact check_of_error strict
  · intro severity set grave
    have lenient : rule.severity ≠ .error := by
      have own : rule.severity = severity := congrArg (·.getD .error) set
      rwa [own]
    refine ⟨?_, check_of_lenient lenient⟩
    intro finding member
    rw [check_of_lenient lenient] at member
    simpa using (List.mem_filter.mp member).2

end TopRule

namespace Linter

open TopRule

variable {linter : Linter} {e : Exemptions}

/-- Findings are not changed if the severity that is set is that of the rule. -/
theorem adjust_eq_self {rule : Rule}
    (own : ∀ severity, linter.configuration.severity? rule.name = some severity → severity = rule.severity)
    (findings : List Finding) : linter.adjust rule findings = findings := by
  rw [adjust]
  cases set : linter.configuration.severity? rule.name with
  | none => rfl
  | some severity =>
      have kept : ∀ finding ∈ findings, (if finding.severity = rule.severity
          then { finding with severity } else finding) = finding := by
        intro finding _
        split
        · rename_i same
          rw [own severity set, ← same]
        · rfl
      exact (List.map_congr_left kept).trans (List.map_id' findings)

theorem adjust_configured (findings : List Finding) :
    linter.adjust (configured linter.configuration e).toRule findings = findings := by
  refine adjust_eq_self (fun severity set => ?_) findings
  have set : linter.configuration.severity? name = some severity := set
  simp only [toRule, configured, set, Option.getD_some]

/-- The rule at its default severity, once its findings have been adjusted. -/
theorem adjust_default (file : SourceFile) (o : Outline) :
    let plain : TopRule := { exemptions := e }
    linter.adjust plain.toRule (plain.check file o) =
      reports ((linter.configuration.severity? name).getD .error) e file o := by
  intro plain
  have named : plain.toRule.name = name := rfl
  have error : plain.toRule.severity = .error := rfl
  have reported : plain.check file o = reports .error e file o := check_of_error rfl
  rw [adjust, named, error, reported]
  cases linter.configuration.severity? name with
  | none => rfl
  | some severity =>
      -- what asks for a reason is a warning, so it does not take the severity that is set
      have given : ∀ m, (report? .error file o m).map (fun finding =>
          if finding.severity = .error then { finding with severity } else finding) =
            report? severity file o m := by
        intro m
        rw [report?, report?]
        rcases permission file o m with _ | _ | reason
        · obtain ⟨node, blocker⟩ := m
          cases blocker <;> rfl
        · rfl
        · rfl
      simp only [reports, List.map_filterMap, given, Option.getD_some]

theorem checkText_of_enabled (rule : Rule) {grammar : Grammar} (base : Path) {path : Path}
    {text : List Char} {o : Outline} (enabled : linter.configuration.isEnabled rule.name)
    (parsed : Outline.parse text (grammar ((Dialect.ofPath? path).getD .javaScript) text) = .ok o) :
    { linter with rules := [rule] }.checkText grammar base path text =
      .ok (linter.adjust rule
        (rule.check (.below base path text ((Dialect.ofPath? path).getD .javaScript)) o)) := by
  simp only [checkText, parsed, findings, List.filter_singleton, enabled, cond_true,
    List.flatMap_singleton]
  rfl

/-- On a text without faults, the linter leaves the findings of the rule as it is configured alone, and
gives those of the rule at its default severity the severity that is set. -/
theorem checkText_severities (linter : Linter) (grammar : Grammar) (base path : Path) (text : List Char)
    (e : Exemptions) (sound : (grammar ((Dialect.ofPath? path).getD .javaScript) text).hasFault = false)
    (enabled : linter.configuration.isEnabled "vars-on-top")
    (valid : linter.configuration.exemptions = .ok e) :
    let given := linter.configuration.severity? "vars-on-top"
    let rule : TopRule := { exemptions := e, severity := given.getD .error }
    let plain : TopRule := { exemptions := e }
    ∃ a b, linter.configuration.configuredRules = .ok [rule.toRule] ∧
      { linter with rules := [rule.toRule] }.checkText grammar base path text = .ok a ∧
      { linter with rules := [plain.toRule] }.checkText grammar base path text = .ok b ∧
      (∀ file o, linter.adjust rule.toRule (rule.check file o) = rule.check file o) ∧
      SameButReasons given a b := by
  intro given rule plain
  obtain ⟨file, o, checked⟩ : ∃ file o, ∀ rule : TopRule,
      { linter with rules := [rule.toRule] }.checkText grammar base path text =
        .ok (linter.adjust rule.toRule (rule.check file o)) :=
    ⟨_, _, fun rule => checkText_of_enabled rule.toRule base enabled (Outline.parse_eq_ok sound)⟩
  have unchanged : ∀ findings, linter.adjust rule.toRule findings = findings := adjust_configured
  refine ⟨rule.check file o, reports rule.severity e file o, configuredRules_eq valid, ?_, ?_, ?_, ?_⟩
  · rw [checked rule, unchanged]
  · rw [checked plain, adjust_default]
    rfl
  · exact fun file o => unchanged _
  · exact check_sameButReasons given e file o

/-- `f();` keeps two declarations from the top, and the second is allowed without a reason. -/
def mixedText : List Char :=
  "f();\nvar a;\n// hoist-lint: allow(vars-on-top)\nvar b;".toList

def mixedTree : Concrete :=
  .node ⟨"program", 0, 52, none, .named⟩
    [.node ⟨"expression_statement", 0, 4, none, .named⟩
      [.node ⟨"call_expression", 0, 3, none, .named⟩ []],
    .node ⟨"variable_declaration", 5, 11, none, .named⟩ [],
    .node ⟨"comment", 12, 45, none, .named⟩ [],
    .node ⟨"variable_declaration", 46, 52, none, .named⟩ []]

/-- A linter whose configuration makes the rule a warning. -/
def demoting : Linter where
  root := ⟨['/']⟩
  rules := []
  selection := {}
  configuration :=
    { rules := [("vars-on-top".toList,
        { severity := some .warning, options := [("forStatement".toList, .boolean false)] })] }
  strict := false

theorem checkText_severities_demoting :
    let rule : TopRule := { exemptions := { counting := false }, severity := .warning }
    let plain : TopRule := { exemptions := { counting := false } }
    mixedTree.hasFault = false ∧ demoting.configuration.isEnabled "vars-on-top" ∧
      demoting.configuration.exemptions = .ok { counting := false } ∧
      ∃ a b, demoting.configuration.configuredRules = .ok [rule.toRule] ∧
        { demoting with rules := [rule.toRule] }.checkText (fun _ _ => mixedTree) ⟨['/']⟩ ⟨['/', 'f']⟩
          mixedText = .ok a ∧
        { demoting with rules := [plain.toRule] }.checkText (fun _ _ => mixedTree) ⟨['/']⟩ ⟨['/', 'f']⟩
          mixedText = .ok b ∧
        (∀ file o, demoting.adjust rule.toRule (rule.check file o) = rule.check file o) ∧
        SameButReasons (some .warning) a b :=
  ⟨by decide, by decide, by decide +kernel,
    checkText_severities demoting (fun _ _ => mixedTree) _ _ mixedText _ (by decide) (by decide)
      (by decide +kernel)⟩

end Linter

end ScopeLint
