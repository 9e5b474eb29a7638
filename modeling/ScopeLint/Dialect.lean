import ScopeLint.Path

/-!
# Dialects

The language of a source file, told from the extension of its path.
-/

namespace ScopeLint

inductive Dialect where
  | javaScript
  | typeScript
  | tsx
  deriving DecidableEq, Repr

namespace Dialect

/-- The extensions of source files, each with its dialect. Case counts. -/
def byExtension : List (String × Dialect) :=
  [("js", javaScript), ("mjs", javaScript), ("cjs", javaScript), ("jsx", javaScript),
    ("ts", typeScript), ("mts", typeScript), ("cts", typeScript), ("tsx", tsx)]

def extensions : List String :=
  byExtension.map (·.1)

def ofPath? (path : Path) : Option Dialect :=
  path.extension?.bind fun ext => byExtension.lookup (String.ofList ext)

end Dialect

end ScopeLint
