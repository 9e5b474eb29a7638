import ScopeLint.Text.Bytes

/-!
# Lines and positions

Only a line feed ends a line. Positions are counted from one, a column in bytes. `lines` is the list
of lines a reader sees: a carriage return directly before a line feed belongs to the line end, and a
final line feed does not open another line.
-/

namespace ScopeLint.Text

/-- A place in a text: line and column, both counted from one. -/
structure Position where
  line : Nat
  column : Nat
  deriving DecidableEq, Repr

/-- The stretch of the last line that a text has begun. -/
def lastLine (cs : List Char) : List Char :=
  (cs.reverse.takeWhile (· != '\n')).reverse

/-- The position of a byte offset. -/
def positionAt (cs : List Char) (offset : Nat) : Position :=
  let before := takeBytes offset cs
  { line := before.count '\n' + 1
    column := offset - (byteLength before - byteLength (lastLine before)) + 1 }

/-- Remove the carriage return that ends a line, given backwards. -/
def dropReturn : List Char → List Char
  | '\r' :: cs => cs
  | cs => cs

/-- The lines of a text whose current line has already given `begun`, backwards. -/
def linesFrom : (begun : List Char) → List Char → List (List Char)
  | begun, [] => if begun.isEmpty then [] else [begun.reverse]
  | begun, c :: cs =>
      if c = '\n' then (dropReturn begun).reverse :: linesFrom [] cs
      else linesFrom (c :: begun) cs

/-- The lines of a text, without their line ends. -/
def lines (cs : List Char) : List (List Char) :=
  linesFrom [] cs

end ScopeLint.Text
