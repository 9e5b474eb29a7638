import ScopeLint.Text.Suffixes

/-!
# Steps of ignore patterns

The steps that the patterns of ignore files are made of, and what they match. A pattern matches the
bytes of a path: `?` is one byte and `*` a run of bytes, neither of them a slash; `**` between slashes
crosses directories; a group in braces takes what one of its alternatives takes.

Matching works with a table over the suffixes of the path, from the last step to the first.
-/

namespace ScopeLint

open Text (onlyLast orNext orLater orAfter orThrough)

/-- One step of a pattern. -/
inductive Wildcard where
  | byte (b : UInt8)
  | anyByte
  | run
  /-- Two stars and a slash at the start: any directories, or none. -/
  | leadingDirectories
  /-- Two stars between two slashes: a slash, or directories between two. -/
  | innerDirectories
  /-- A slash and two stars at the end: everything below. -/
  | everythingBelow
  | oneOf (negated : Bool) (ranges : List (UInt8 × UInt8))
  /-- Alternatives; a group that has none takes nothing. -/
  | group (alternatives : List (List Wildcard))
  deriving Repr, Inhabited

namespace Wildcard

def slash : UInt8 := 47

def inRanges (ranges : List (UInt8 × UInt8)) (b : UInt8) : Bool :=
  ranges.any fun r => r.1 ≤ b && b ≤ r.2

/-- Mark the suffixes that one of two tables marks. -/
def either (a b : List Bool) : List Bool :=
  a.zipWith or b

/-- Mark the suffixes from which some directories, or none, lead to a marked one. -/
def orDirectories (bs : List UInt8) (marks : List Bool) : List Bool :=
  either marks (orAfter (· = slash) bs marks)

mutual

/-- The table of a step and what follows it, from the table `marks` of what follows it. -/
def before (bs : List UInt8) (marks : List Bool) : Wildcard → List Bool
  | byte c => orNext (· = c) bs marks
  | anyByte => orNext (· ≠ slash) bs marks
  | oneOf negated ranges => orNext (fun b => inRanges ranges b != negated) bs marks
  | run => orThrough (· ≠ slash) bs marks
  | leadingDirectories => orDirectories bs marks
  | innerDirectories => orNext (· = slash) bs (orDirectories bs marks)
  | everythingBelow => orNext (· = slash) bs (orLater marks)
  | group [] => marks
  | group (steps :: others) => either (allBefore bs marks steps) (anyBefore bs marks others)

/-- The table of a sequence of steps and what follows it. -/
def allBefore (bs : List UInt8) (marks : List Bool) : List Wildcard → List Bool
  | [] => marks
  | step :: steps => step.before bs (allBefore bs marks steps)

/-- The table of alternatives, each with what follows the group. -/
def anyBefore (bs : List UInt8) (marks : List Bool) : List (List Wildcard) → List Bool
  | [] => marks.map fun _ => false
  | steps :: others => either (allBefore bs marks steps) (anyBefore bs marks others)

end

/-- Whether a sequence of steps matches a path; `**` alone matches every path. -/
def accepts (steps : List Wildcard) (path : List UInt8) : Bool :=
  match steps with
  | [leadingDirectories] => true
  | _ => (allBefore path (onlyLast path) steps).headD false

end Wildcard

end ScopeLint
