import ScopeLint.Decimal.Shortest
import ScopeLint.Text.Quoted

/-!
# Misfits

A value of a data format that does not fit the type it is read as: what was found, what was wanted,
and the wording of the complaint.
-/

namespace ScopeLint

/-- What stands where something else was wanted. -/
inductive Found where
  | null
  | boolean (value : Bool)
  | integer (value : Int)
  | float (value : Binary64) (style : NumberStyle)
  | string (value : List Char)
  | sequence
  | map
  deriving DecidableEq, Repr

def Found.describe : Found → String
  | null => "null"
  | boolean value => s!"boolean `{value}`"
  | integer value => s!"integer `{value}`"
  | float value style => s!"floating point `{String.ofList (value.text style)}`"
  | string value => s!"string {String.ofList (Text.quote value)}"
  | sequence => "sequence"
  | map => "map"

/-- Why a value does not fit its type. -/
inductive Misfit where
  | type (found : Found) (wanted : String)
  | value (found : Found) (wanted : String)
  | length (count : Nat) (record : String) (fields : Nat)
  | tooLong (count : Nat)
  | missingField (key : String)
  | duplicateField (key : String)
  | unknownField (key : String) (known : List String)
  | unknownVariant (name : String) (known : List String)
  | notAVariant
  | noVariant
  | severalVariants
  | variantNotEmpty (container : String)
  | variantContent (found : String)
  | notADate
  | notAlone (count : Nat)
  deriving DecidableEq, Repr

namespace Misfit

/-- Names in backquotes, separated by commas. -/
def listing (names : List String) : String :=
  String.intercalate ", " (names.map fun name => s!"`{name}`")

def message : Misfit → String
  | type found wanted => s!"invalid type: {found.describe}, expected {wanted}"
  | value found wanted => s!"invalid value: {found.describe}, expected {wanted}"
  | length count record fields =>
      let noun := if fields = 1 then "element" else "elements"
      s!"invalid length {count}, expected struct {record} with {fields} {noun}"
  | tooLong count => s!"invalid length {count}, expected fewer elements in array"
  | missingField key => s!"missing field `{key}`"
  | duplicateField key => s!"duplicate field `{key}`"
  | unknownField key known => s!"unknown field `{key}`, expected one of {listing known}"
  | unknownVariant name known => s!"unknown variant `{name}`, expected one of {listing known}"
  | notAVariant => "wanted string or table"
  | noVariant => "wanted exactly 1 element, found 0 elements"
  | severalVariants => "wanted exactly 1 element, more than 1 element"
  | variantNotEmpty container => s!"expected empty {container}"
  | variantContent found => s!"expected table, found {found}"
  | notADate => "failed to parse datetime"
  | notAlone count => s!"invalid length {count}, expected 1 element in map"

end Misfit

end ScopeLint
