import ScopeLint.Dialect
import ScopeLint.Directive
import ScopeLint.Finding
import ScopeLint.Placement

/-!
# Rules

A rule looks at the outline of a source file and returns findings. The rule of this tool asks that
`var` declarations stand on top of their scope.
-/

namespace ScopeLint

/-- A source file as a rule sees it. `shown` is the path that findings carry. -/
structure SourceFile where
  path : Path
  shown : Path
  text : List Char
  dialect : Dialect
  deriving DecidableEq, Repr

/-- A source file whose findings are reported relative to a base directory. -/
def SourceFile.below (base path : Path) (text : List Char) (dialect : Dialect) : SourceFile :=
  { path, shown := path.relativeTo base, text, dialect }

structure Rule where
  name : String
  code : String
  description : String := ""
  severity : Severity := .error
  check : SourceFile → Outline → List Finding

/-- Whether a directive that permits breaking the rule has to give a reason. -/
def Rule.requiresReason (rule : Rule) : Bool :=
  rule.severity = .error

/-- The settings of the rule that `var` declarations stand on top of their scope. -/
structure TopRule where
  exemptions : Exemptions := {}
  severity : Severity := .error
  deriving DecidableEq, Repr

namespace TopRule

def name : String := "vars-on-top"

def code : String := "HL001"

def description : String := "Requires 'var' declarations at the top of their function scope"

def message : String := "All 'var' declarations must be at the top of the function scope."

/-- The place of a node in a source file. -/
def locate (file : SourceFile) (o : Outline) (node : Nat) : Location :=
  Location.ofSpan file.shown (o.span node)

/-- The finding on a misplaced declaration that no directive permits. -/
def misplaced (severity : Severity) (file : SourceFile) (o : Outline) (m : Misplacement) : Finding :=
  let base : Finding :=
    { code, rule := name, severity, location := locate file o m.node, message }
  match m.blocker with
  | some blocker =>
      { base with
        help := some "Move this declaration above the first non-declaration statement"
        notes := [⟨locate file o blocker, "first statement that is not a declaration"⟩] }
  | none =>
      { base with
        help := some "Move this declaration to the top of the enclosing function or program" }

/-- The finding on a directive that should give a reason and does not. -/
def missingReason (file : SourceFile) (o : Outline) (node : Nat) : Finding :=
  { code, rule := name, severity := .warning, location := locate file o node
    message := s!"Allow directive for '{name}' is missing required reason"
    help := some "Add reason=\"...\" to explain why this exception is necessary" }

/-- What is reported of a misplaced declaration, after the directives around it have been heard. -/
def finding? (rule : TopRule) (file : SourceFile) (o : Outline) (m : Misplacement) : Option Finding :=
  match Directive.permission file.text (locate file o m.node).line name.toList with
  | .denied => some (misplaced rule.severity file o m)
  | .allowed none =>
      if rule.severity = .error then some (missingReason file o m.node) else none
  | .allowed (some _) => none

/-- The findings on the `var` declarations of a file, in the order they are visited. -/
def check (rule : TopRule) (file : SourceFile) (o : Outline) : List Finding :=
  (o.visitsWhere (· = .declaration .var)).filterMap fun visit =>
    (Placement.verdict o rule.exemptions visit.node visit.lineage).bind (rule.finding? file o)

def toRule (rule : TopRule) : Rule where
  name := name
  code := code
  description := description
  severity := rule.severity
  check := rule.check

end TopRule

end ScopeLint
