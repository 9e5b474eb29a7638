import ScopeLint.Configuration
import ScopeLint.Rule

/-!
# The catalogue of rules

The rules of this tool, as they are by default and as a configuration sets them. The options in the
table of a rule are judged in the order of their keys, so the order of the file does not matter.
-/

namespace ScopeLint

namespace RuleSettings

/-- The order of options: by the code points of their keys, which is also the order of their bytes. -/
def compareKeys (a b : List Char × Toml) : Ordering :=
  compare (a.1.map Char.toNat) (b.1.map Char.toNat)

/-- The options of a table in the order of their keys. -/
def inKeyOrder (settings : RuleSettings) : List (List Char × Toml) :=
  settings.options.mergeSort fun a b => (compareKeys a b).isLE

def optionKeys : List String := ["forStatement", "forInStatement", "forOfStatement"]

/-- Take one option of the rule on declarations. -/
def setExemption (changes : Exemptions.Changes) (key : List Char) (v : Toml) :
    Except Misfit Exemptions.Changes := do
  let flag : Except Misfit Bool :=
    match v with
    | .boolean b => .ok b
    | _ => .error (.type v.optionFound "a boolean")
  match String.ofList key with
  | "forStatement" => return { changes with counting := some (← flag) }
  | "forInStatement" => return { changes with overKeys := some (← flag) }
  | "forOfStatement" => return { changes with overValues := some (← flag) }
  | other => throw (.unknownField other optionKeys)

/-- Take options in the order in which they are given. -/
def takeAll (changes : Exemptions.Changes) (entries : List (List Char × Toml)) :
    Except Misfit Exemptions.Changes :=
  entries.foldlM (fun changes entry => setExemption changes entry.1 entry.2) changes

/-- The exemptions that the options of a rule state, judged in the order of the keys. -/
def exemptions (settings : RuleSettings) (rule : String) :
    Except ConfigurationError Exemptions.Changes :=
  (takeAll {} settings.inKeyOrder).mapError (.invalidOptions rule)

end RuleSettings

namespace TopRule

/-- The rule as its table sets it. -/
def ofSettings (settings : RuleSettings) : Except ConfigurationError TopRule := do
  let changes ← settings.exemptions name
  return { exemptions := ({} : Exemptions).change changes, severity := settings.severity.getD .error }

end TopRule

/-- The rules this tool has. -/
def Rule.all : List Rule :=
  [({} : TopRule).toRule]

def Rule.names : List String :=
  Rule.all.map (·.name)

namespace Configuration

/-- The names of tables for rules that do not exist. -/
def unknownRules (c : Configuration) : List (List Char) :=
  (c.rules.map (·.1)).filter fun name => !Rule.names.contains (String.ofList name)

/-- The rules as the configuration sets them. -/
def configuredRules (c : Configuration) : Except ConfigurationError (List Rule) :=
  match c.ruleSettings? TopRule.name with
  | none => .ok [({} : TopRule).toRule]
  | some settings =>
      match TopRule.ofSettings settings with
      | .ok rule => .ok [rule.toRule]
      | .error e => .error e

end Configuration

end ScopeLint
