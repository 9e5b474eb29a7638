import ScopeLint.Syntax.Concrete
import ScopeLint.Text.Digits
import ScopeLint.Text.Search

/-!
# Listings of concrete trees

A concrete tree written as text: a line for each node in pre-order, with its depth, kind, start, end,
field and mark, separated by blanks. A dash stands for no field and for a plain named node.
-/

namespace ScopeLint

namespace Mark

def ofName? : String → Option Mark
  | "-" => some named
  | "token" => some token
  | "error" => some error
  | "missing" => some missing
  | "missing-token" => some missingToken
  | _ => none

end Mark

namespace Concrete

/-- A number written in decimal digits only. -/
def number? (digits : List Char) : Option Nat :=
  if !digits.isEmpty && digits.all Char.isDigit then some (Text.natOfDigits digits) else none

/-- The node on a line, with its depth. -/
def row? (line : List Char) : Option (Nat × Label) :=
  match Text.splitAt ' ' line with
  | [depth, kind, start, stop, field, mark] => do
      let depth ← number? depth
      let start ← number? start
      let stop ← number? stop
      let mark ← Mark.ofName? (String.ofList mark)
      let field := if field = ['-'] then none else some (String.ofList field)
      return (depth, { kind := String.ofList kind, start, stop, field, mark })
  | _ => none

/-- The tree of a listing. -/
def ofListing? (text : List Char) : Option Concrete := do
  ofRows? (← (Text.lines text).mapM row?)

end Concrete

end ScopeLint
