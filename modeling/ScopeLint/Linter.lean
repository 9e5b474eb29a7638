import ScopeLint.Catalogue
import ScopeLint.Discovery
import ScopeLint.Report
import ScopeLint.Syntax.Outlining

/-!
# The linter

A linter checks source texts with its rules and gathers the findings of all files below its root into
one report. Files are checked in the order of their paths, each on its own. A file that does not parse
is passed over with a warning, unless the linter is strict.
-/

namespace ScopeLint

/-- How a source text is parsed. -/
abbrev Grammar := Dialect → List Char → Concrete

/-- Why a run of the linter ends without a report. -/
inductive LintError where
  | notText
  | search (path : Path) (cause : SearchError)
  | syntactic (path : Path) (fault : SyntaxFault)
  | glob (cause : GlobError)
  | configuration (cause : ConfigurationError)
  deriving DecidableEq, Repr

def LintError.message : LintError → String
  | notText => "IO error: stream did not contain valid UTF-8"
  | search path cause => s!"Walk error: {cause.message path}"
  | syntactic path fault => s!"Parse error in {path.text}: {fault.message}"
  | glob cause => s!"Invalid glob pattern: {cause.message}"
  | configuration cause => s!"Configuration error: {cause.message}"

/-- What a run tells the user besides its result. -/
inductive Warning where
  | unparsed (path : Path) (fault : SyntaxFault)
  | unknownRuleTable (name : List Char)
  | unknownRule (name : List Char)
  deriving DecidableEq, Repr

def Warning.message : Warning → String
  | unparsed path fault => s!"Failed to parse {path.text}: {fault.message}"
  | unknownRuleTable name => s!"Unknown rule in configuration: {String.ofList name}"
  | unknownRule name => s!"Unknown rule: {String.ofList name}"

/-- The warning as it is shown on a terminal. -/
def Warning.shown (w : Warning) : String :=
  String.ofList (Text.disarm w.message.toList)

structure Linter where
  root : Path
  rules : List Rule
  selection : Selection
  configuration : Configuration
  strict : Bool

/-- What a linter is made from. Patterns given here come before those of the configuration. -/
structure LinterPlan where
  root : Option Path := none
  rules : List Rule := []
  excludes : List (List Char) := []
  includes : List (List Char) := []
  configuration : Configuration := {}
  strict : Bool := false

/-- Make a linter; a relative root is taken from the current directory. -/
def LinterPlan.build (plan : LinterPlan) (current : Path) : Except LintError Linter :=
  let files := plan.configuration.files
  match Selection.ofPatterns (plan.excludes ++ files.excludes) (plan.includes ++ files.includes) with
  | .ok selection =>
      .ok { root := current.join (plan.root.getD files.root), rules := plan.rules, selection
            configuration := plan.configuration, strict := plan.strict }
  | .error cause => .error (.glob cause)

/-- What a run of the linter ends with. -/
structure Outcome where
  warnings : List Warning := []
  result : Except LintError Report

namespace Linter

/-- The directory that reported paths are relative to. -/
def base (linter : Linter) (fs : FileSystem) : Path :=
  if fs.isFile linter.root then linter.root.parent?.getD linter.root else linter.root

/-- Give the findings of a rule the severity that the configuration sets for it. Findings whose
severity is not the rule's own keep theirs. -/
def adjust (linter : Linter) (rule : Rule) (findings : List Finding) : List Finding :=
  match linter.configuration.severity? rule.name with
  | none => findings
  | some severity =>
      findings.map fun f => if f.severity = rule.severity then { f with severity } else f

/-- The findings of all enabled rules on one file. -/
def findings (linter : Linter) (file : SourceFile) (o : Outline) : List Finding :=
  (linter.rules.filter fun rule => linter.configuration.isEnabled rule.name).flatMap fun rule =>
    linter.adjust rule (rule.check file o)

/-- Check a source text as if it were read from a path. A path without a dialect counts as
JavaScript. -/
def checkText (linter : Linter) (grammar : Grammar) (base path : Path) (text : List Char) :
    Except SyntaxFault (List Finding) :=
  let dialect := (Dialect.ofPath? path).getD .javaScript
  match Outline.parse text (grammar dialect text) with
  | .ok o => .ok (linter.findings (SourceFile.below base path text dialect) o)
  | .error fault => .error fault

/-- Check files one after the other. -/
def checkFiles (linter : Linter) (grammar : Grammar) (base : Path) : List FoundFile → Outcome
  | [] => { result := .ok {} }
  | f :: fs =>
      match textOfBytes? f.content with
      | none => { result := .error .notText }
      | some text =>
          match linter.checkText grammar base f.path text with
          | .ok findings =>
              let rest := linter.checkFiles grammar base fs
              { rest with result := rest.result.map (Report.append ⟨findings, 1⟩) }
          | .error fault =>
              let warning := Warning.unparsed f.path fault
              if linter.strict then
                { warnings := [warning], result := .error (.syntactic f.path fault) }
              else
                let rest := linter.checkFiles grammar base fs
                { rest with warnings := warning :: rest.warnings }

/-- The files in the order in which they are checked. -/
def inOrder (files : List FoundFile) : List FoundFile :=
  files.mergeSort fun f g => (f.comparePaths g).isLE

/-- Check the files that a search found, in the order of their paths whatever order they come in. -/
def analyzeFiles (linter : Linter) (grammar : Grammar) (base : Path) (files : List FoundFile) :
    Outcome :=
  let outcome := linter.checkFiles grammar base (inOrder files)
  { outcome with result := outcome.result.map Report.sort }

/-- Check all source files of the root. -/
def analyze (linter : Linter) (grammar : Grammar) (fs : FileSystem) : Outcome :=
  match Discovery.sourceFiles fs linter.configuration.files.respectIgnoreFiles linter.selection
      linter.root with
  | .ok files => linter.analyzeFiles grammar (linter.base fs) files
  | .error cause => { result := .error (.search linter.root cause) }

end Linter

end ScopeLint
