import ScopeLint.Misfit
import ScopeLint.Path
import ScopeLint.Severity
import ScopeLint.Toml.Scalar

/-!
# Values of a settings file by type

Each function takes a value of a settings file as one type, or says why it does not fit.
-/

namespace ScopeLint

namespace Toml

/-- The key under which a date is given when it is looked at as a table. -/
def dateKey : List Char := "$__toml_private_datetime".toList

/-- The entries of a value that can be looked at as a table. -/
def entries? : Toml → Option (List (List Char × Toml))
  | table entries => some entries
  | datetime d => some [(dateKey, .string d.text)]
  | _ => none

/-- The items of a value that can be looked at as a sequence. -/
def items? : Toml → Option (List Toml)
  | array items => some items
  | tables items => some items
  | _ => none

/-- The numbers in complaints: a tie goes up, and no number has an exponent. -/
def numberStyle : NumberStyle where
  tie := .up
  places := none

/-- What a value of a settings file is, for a complaint. -/
def found : Toml → Found
  | string s => .string s
  | integer i => .integer i
  | float x => .float x numberStyle
  | boolean b => .boolean b
  | datetime _ => .map
  | array _ => .sequence
  | tables _ => .sequence
  | table _ => .map

/-- What a value of an option is, for a complaint: here a date counts as its text. -/
def optionFound : Toml → Found
  | datetime d => .string d.text
  | v => v.found

def toBoolean : Toml → Except Misfit Bool
  | boolean b => .ok b
  | v => .error (.type v.found "a boolean")

def toText (wanted : String) : Toml → Except Misfit (List Char)
  | string s => .ok s
  | v => .error (.type v.found wanted)

def toPath (v : Toml) : Except Misfit Path := do
  return ⟨← toText "path string" v⟩

def toTexts (v : Toml) : Except Misfit (List (List Char)) :=
  match v.items? with
  | some items => items.mapM (toText "a string")
  | none => .error (.type v.found "a sequence")

/-- The severity with a name. -/
def severityOf (name : List Char) : Except Misfit Severity :=
  match Severity.ofName? (String.ofList name) with
  | some s => .ok s
  | none => .error (.unknownVariant (String.ofList name) (Severity.all.map Severity.name))

/-- A severity is its name, or a table whose only entry is the name with nothing in it. An array in
brackets counts as a table here. -/
def toSeverity : Toml → Except Misfit Severity
  | string name => severityOf name
  | table [] => .error .noVariant
  | table [(name, content)] => do
      let severity ← severityOf name
      match content with
      | array [] => return severity
      | array _ => throw (.variantNotEmpty "table")
      | tables [] => return severity
      | tables _ => throw (.variantNotEmpty "array")
      | table [] => return severity
      | table _ => throw (.variantNotEmpty "table")
      | string _ => throw (.variantContent "string")
      | integer _ => throw (.variantContent "integer")
      | float _ => throw (.variantContent "float")
      | boolean _ => throw (.variantContent "boolean")
      | datetime _ => throw (.variantContent "datetime")
  | table _ => .error .severalVariants
  | _ => .error .notAVariant

/-- The date in a table that begins with the key of dates, which has to be the only one. -/
def dateOf (v : Toml) (others : Nat) : Except Misfit Toml :=
  match v with
  | string text =>
      match datetimeOfText? text with
      | some d => if others = 0 then .ok (datetime d) else .error (.notAlone (others + 1))
      | none => .error .notADate
  | v => .error (.type v.found "string containing a datetime")

mutual

/-- The value of an option, in which tables that begin with the key of dates are dates. -/
def toOption : Toml → Except Misfit Toml
  | array items => return array (← itemsToOption items)
  | tables items => return tables (← itemsToOption items)
  | table [] => .ok (table [])
  | table ((key, v) :: entries) => do
      if key = dateKey then dateOf v entries.length
      else return table ((key, ← v.toOption) :: (← entriesToOption entries))
  | v => .ok v

def itemsToOption : List Toml → Except Misfit (List Toml)
  | [] => .ok []
  | v :: items => return (← v.toOption) :: (← itemsToOption items)

/-- The values of options; here the key of dates has no meaning. -/
def entriesToOption : List (List Char × Toml) → Except Misfit (List (List Char × Toml))
  | [] => .ok []
  | (key, v) :: entries => return (key, ← v.toOption) :: (← entriesToOption entries)

end

end Toml

end ScopeLint
