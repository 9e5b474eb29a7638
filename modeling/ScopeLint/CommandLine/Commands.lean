import ScopeLint.CommandLine.Arguments
import ScopeLint.ConfigurationSource
import ScopeLint.Linter

/-!
# Commands

What the program does when it is called: check sources, list the rules, or write a first settings file.
A run sees a snapshot of the file system and leaves one.
-/

namespace ScopeLint.CommandLine

/-- Why a command fails. -/
inductive CommandError where
  | configurationNotLoaded (path : Path)
  | invalidRules (cause : ConfigurationError)
  | linterNotBuilt (cause : LintError)
  | analysisFailed (cause : LintError)
  | configurationExists (path : Path)
  | notWritten (path : Path)
  deriving DecidableEq, Repr

def CommandError.message : CommandError → String
  | configurationNotLoaded path => s!"Failed to load config: {path.text}"
  | invalidRules _ => "Invalid rule configuration"
  | linterNotBuilt _ => "Failed to build analyzer"
  | analysisFailed _ => "Analysis failed"
  | configurationExists path =>
      s!"Configuration file already exists at {path.text}. Use --force to overwrite."
  | notWritten path => s!"Failed to write {path.text}"

/-- What a command ends with: warnings, and an error or a text for standard output and whether the
run counts as failed. -/
structure Ending where
  warnings : List Warning := []
  result : Except CommandError (String × Bool)

/-! ## Checking -/

/-- The rules that a list of names or codes asks for. -/
def chosen (names : List (List Char)) (rules : List Rule) : List Rule :=
  rules.filter fun r => names.contains r.name.toList || names.contains r.code.toList

/-- The names that no rule answers to. -/
def unknownNames (names : List (List Char)) (rules : List Rule) : List (List Char) :=
  names.filter fun name => !rules.any fun r => r.name.toList = name || r.code.toList = name

/-- The names of a list separated by commas. -/
def filterNames (filter : List Char) : List (List Char) :=
  (Text.splitAt ',' filter).map Text.trim

/-- Keep the rules that a filter names. -/
def applyFilter (filter : Option (List Char)) (rules : List Rule) : List Rule × List Warning :=
  match filter with
  | none => (rules, [])
  | some filter =>
      let names := filterNames filter
      (chosen names rules, (unknownNames names rules).map .unknownRule)

/-- Check the sources at a path under a configuration. -/
def checkWith (fs : FileSystem) (grammar : Grammar) (configuration : Configuration) (path : Path)
    (filter : Option (List Char)) (excludes : List (List Char)) :
    List Warning × Except CommandError Report :=
  let unknownTables := configuration.unknownRules.map Warning.unknownRuleTable
  match configuration.configuredRules with
  | .error cause => (unknownTables, .error (.invalidRules cause))
  | .ok rules =>
      let (rules, unknown) := applyFilter filter rules
      let plan : LinterPlan := { root := some path, rules, excludes, configuration }
      match plan.build fs.current with
      | .error cause => (unknownTables ++ unknown, .error (.linterNotBuilt cause))
      | .ok linter =>
          let outcome := linter.analyze grammar fs
          (unknownTables ++ unknown ++ outcome.warnings,
            match outcome.result with
            | .ok report => .ok report
            | .error cause => .error (.analysisFailed cause))

/-- Draw a finding of a check at a path over the text of its file, as far as this can be read. -/
def drawFinding (fs : FileSystem) (draw : Drawing) (path : Path) (f : Finding) : String :=
  let base := if fs.isFile path then path.parent?.getD ⟨['.']⟩ else path
  let text := (fs.bytes? (base.join f.location.file)).bind textOfBytes?
  draw (f.diagnostic (text.getD []))

/-- Check the sources at a path under the configuration of a source, and write the report. The run
fails if a finding reaches the threshold of the configuration. -/
def check (fs : FileSystem) (grammar : Grammar) (draw : Drawing) (source : ConfigurationSource)
    (path : Path) (format : Format) (filter : Option (List Char)) (excludes : List (List Char)) : Ending :=
  match source.load? fs with
  | none => { result := .error (.configurationNotLoaded (source.path?.getD ⟨[]⟩)) }
  | some configuration =>
      match checkWith fs grammar configuration path filter excludes with
      | (warnings, .error cause) => { warnings, result := .error cause }
      | (warnings, .ok report) =>
          let output := format.render (drawFinding fs draw path) report
          { warnings, result := .ok (output, report.reaches configuration.threshold) }

/-! ## Listing the rules -/

/-- A text filled up with blanks to a width. -/
def padded (width : Nat) (text : String) : String :=
  text ++ String.ofList (List.replicate (width - text.length) ' ')

def ruleRow (code name description : String) : String :=
  padded 10 code ++ " " ++ padded 25 name ++ " " ++ description ++ "\n"

def ruleList : String :=
  "Available rules:\n\n" ++ ruleRow "Code" "Name" "Description" ++
    String.ofList (List.replicate 80 '-') ++ "\n" ++
    String.join (Rule.all.map fun r => ruleRow r.code r.name r.description) ++
    "\nUse --rules to filter specific rules, e.g.:\n" ++
    "  hoist-lint check --rules vars-on-top\n" ++
    "  hoist-lint check --rules HL001\n"

/-! ## Writing a first settings file -/

/-- The settings file that is written: every setting at its default. -/
def firstSettings : String :=
  "# hoist-lint configuration

# Lowest severity that makes `hoist-lint check` exit with status 1
fail_on = \"error\"

[analyzer]
# Root directory to analyze (default: current directory)
# root = \"./src\"

# Glob patterns to exclude from analysis
exclude = [
    \"**/node_modules/**\",
    \"**/dist/**\",
    \"**/build/**\",
]

# Only analyze files matching these patterns (empty: every .js/.ts file)
# include = [\"src/**\"]

# Respect .gitignore files
respect_gitignore = true

[rules.vars-on-top]
enabled = true
# severity = \"warning\"  # Override default severity

# Allow `var` in loop headers, e.g. `for (var i = 0; ...)`
forStatement = true
forInStatement = true
forOfStatement = true
"

def created : String :=
  "Created hoist-lint.toml\n\nNext steps:\n  1. Edit hoist-lint.toml to configure rules\n" ++
    "  2. Run: hoist-lint check\n"

/-- Write the first settings file into the current directory, over an old one only by force. -/
def init (fs : FileSystem) (force : Bool) : Ending × FileSystem :=
  let path := Path.ofString "./hoist-lint.toml"
  if fs.contains path && !force then ({ result := .error (.configurationExists path) }, fs)
  else
    match fs.write? path firstSettings.toUTF8 with
    | some fs => ({ result := .ok (created, false) }, fs)
    | none => ({ result := .error (.notWritten path) }, fs)

/-! ## Running -/

/-- The directory of the global settings file: the one that is set, or else one in the home
directory. -/
def globalDirectory (fs : FileSystem) (set : Option Path) : Option Path :=
  match set with
  | some directory => some directory
  | none => fs.home.map fun home => home.join (.ofString ".hoist-lint")

/-- Run a command; `settings` is the directory that is set for global settings. -/
def Invocation.run (i : Invocation) (fs : FileSystem) (grammar : Grammar) (draw : Drawing)
    (settings : Option Path) : Ending × FileSystem :=
  match i.command with
  | .check path format rules excludes =>
      let source := ConfigurationSource.forPath fs path i.config (globalDirectory fs settings)
      (check fs grammar draw source path format rules excludes, fs)
  | .listRules => ({ result := .ok (ruleList, false) }, fs)
  | .init force => init fs force

/-- What is seen of a run from outside. -/
structure Run where
  status : Nat
  output : String := ""
  error : Option String := none
  warnings : List Warning := []

def versionLine : String := "hoist-lint 0.1.0\n"

def Ending.toRun (e : Ending) : Run :=
  match e.result with
  | .ok (output, failed) => { status := if failed then 1 else 0, output, warnings := e.warnings }
  | .error cause => { status := 1, error := some cause.message, warnings := e.warnings }

/-- Run the program on its arguments. Wrong usage ends with status 2. How findings are drawn and what the
help says is given from outside, and is nothing by default. -/
def run (arguments : List (List Char)) (fs : FileSystem) (grammar : Grammar) (settings : Option Path)
    (draw : Drawing := fun _ => "") (usage : String := "") : Run × FileSystem :=
  match parse arguments with
  | .ok invocation =>
      let (ending, fs) := invocation.run fs grammar draw settings
      (ending.toRun, fs)
  | .error .version => ({ status := 0, output := versionLine }, fs)
  | .error .help => ({ status := 0, output := usage }, fs)
  | .error .misuse => ({ status := 2 }, fs)

end ScopeLint.CommandLine
