import ScopeLint.Toml.Reader
import ScopeLint.Toml.Record

/-!
# Configuration

What a settings file says: the severity at which a run fails, which files are looked at, and a table
for each rule. Values are judged in the order of the file and the first misfit is reported. The
options of a rule are judged later, by the rule, in the order of their keys.
-/

namespace ScopeLint

/-- The settings of one rule. -/
structure RuleSettings where
  enabled : Option Bool := none
  severity : Option Severity := none
  options : List (List Char × Toml) := []
  deriving Repr

/-- Which files are looked at. -/
structure FileSettings where
  root : Path := ⟨['.']⟩
  excludes : List (List Char) :=
    ["**/node_modules/**".toList, "**/dist/**".toList, "**/build/**".toList]
  includes : List (List Char) := []
  respectIgnoreFiles : Bool := true
  deriving DecidableEq, Repr

structure Configuration where
  failOn : Option Severity := none
  files : FileSettings := {}
  rules : List (List Char × RuleSettings) := []
  deriving Repr

/-- Why a configuration cannot be had. -/
inductive ConfigurationError where
  | malformed
  | misfit (cause : Misfit)
  | invalidOptions (rule : String) (cause : Misfit)
  deriving DecidableEq, Repr

def ConfigurationError.message : ConfigurationError → String
  | malformed => "Failed to parse config"
  | misfit cause => s!"Failed to parse config: {cause.message}"
  | invalidOptions rule cause => s!"Invalid options for rule '{rule}': {cause.message}"

namespace FileSettings

/-- Take one entry of the table; keys that mean nothing are passed over. -/
def set (files : FileSettings) (key : List Char) (v : Toml) : Except Misfit FileSettings := do
  match String.ofList key with
  | "root" => return { files with root := ← v.toPath }
  | "exclude" => return { files with excludes := ← v.toTexts }
  | "include" => return { files with includes := ← v.toTexts }
  | "respect_gitignore" => return { files with respectIgnoreFiles := ← v.toBoolean }
  | _ => return files

/-- The keys by position, for a table given as an array. -/
def keys : List (List Char) :=
  ["root".toList, "exclude".toList, "include".toList, "respect_gitignore".toList]

def ofToml (v : Toml) : Except Misfit FileSettings :=
  match v.entries?, v.items? with
  | some entries, _ => entries.foldlM (fun files entry => files.set entry.1 entry.2) {}
  | none, some items =>
      (keys.zip items).foldlM (fun files entry => files.set entry.1 entry.2) {}
  | none, none => .error (.type v.found "struct AnalyzerConfig")

end FileSettings

namespace RuleSettings

/-- Take one entry of the table; a key without a meaning of its own is an option. -/
def set (settings : RuleSettings) (key : List Char) (v : Toml) : Except Misfit RuleSettings := do
  match String.ofList key with
  | "enabled" => return { settings with enabled := some (← v.toBoolean) }
  | "severity" => return { settings with severity := some (← v.toSeverity) }
  | _ => return { settings with options := settings.options ++ [(key, v)] }

/-- The settings of a rule; its options are looked into after the other entries. -/
def ofToml (v : Toml) : Except Misfit RuleSettings :=
  match v.entries? with
  | some entries => do
      let settings ← entries.foldlM (fun (settings : RuleSettings) entry =>
        settings.set entry.1 entry.2) {}
      return { settings with options := ← Toml.entriesToOption settings.options }
  | none => .error (.type v.found "struct RuleConfig")

end RuleSettings

namespace Configuration

/-- The tables of all rules. -/
def rulesOfToml (v : Toml) : Except Misfit (List (List Char × RuleSettings)) :=
  match v.entries? with
  | some entries => entries.mapM fun entry => return (entry.1, ← RuleSettings.ofToml entry.2)
  | none => .error (.type v.found "a map")

/-- Take one entry of the file; keys that mean nothing are passed over. -/
def set (c : Configuration) (key : List Char) (v : Toml) : Except Misfit Configuration := do
  match String.ofList key with
  | "fail_on" => return { c with failOn := some (← v.toSeverity) }
  | "analyzer" => return { c with files := ← FileSettings.ofToml v }
  | "rules" => return { c with rules := ← rulesOfToml v }
  | _ => return c

/-- Read the text of a settings file. -/
def parse (text : List Char) : Except ConfigurationError Configuration :=
  match Toml.read? text with
  | none => .error .malformed
  | some entries =>
      match entries.foldlM (fun c entry => Configuration.set c entry.1 entry.2)
          ({} : Configuration) with
      | .ok c => .ok c
      | .error cause => .error (.misfit cause)

def ruleSettings? (c : Configuration) (rule : String) : Option RuleSettings :=
  c.rules.lookup rule.toList

/-- A rule is enabled unless its table says otherwise. -/
def isEnabled (c : Configuration) (rule : String) : Bool :=
  match c.ruleSettings? rule with
  | some settings => settings.enabled.getD true
  | none => true

/-- The severity that the table of a rule gives it. -/
def severity? (c : Configuration) (rule : String) : Option Severity :=
  (c.ruleSettings? rule).bind (·.severity)

/-- The severity from which on a run fails. -/
def threshold (c : Configuration) : Severity :=
  c.failOn.getD .error

end Configuration

end ScopeLint
