import ScopeLint.Ignore.Wildcard

/-!
# Reading ignore patterns

How the text of a pattern becomes steps. A backslash takes the next character as it is; classes stand
in brackets, and alternatives in braces, which may be nested. A bracket that is never closed stands for
itself, and so do all brackets after it.
-/

namespace ScopeLint

/-- What is wrong with a pattern. -/
inductive PatternFlaw where
  | unopenedGroup
  | unclosedGroup
  | danglingEscape
  | descendingRange (first last : Char)
  deriving DecidableEq, Repr

def PatternFlaw.message : PatternFlaw → String
  | unopenedGroup =>
      "unopened alternate group; missing '\x7b' (maybe escape '\x7d' with '[\x7d]'?)"
  | unclosedGroup =>
      "unclosed alternate group; missing '\x7d' (maybe escape '\x7b' with '[\x7b]'?)"
  | danglingEscape => "dangling '\\'"
  | descendingRange first last => s!"invalid range; '{first}' > '{last}'"

namespace Wildcard

/-- The steps that spell out a character. -/
def ofChar (c : Char) : List Wildcard :=
  (String.utf8EncodeChar c).map byte

/-- The byte ranges of a range of characters. -/
def byteRanges (range : Char × Char) : List (UInt8 × UInt8) :=
  let first := String.utf8EncodeChar range.1
  let last := String.utf8EncodeChar range.2
  let single (b : UInt8) : UInt8 × UInt8 := (b, b)
  if range.1 = range.2 then first.map single
  else
    match first.reverse, last with
    | a :: before, b :: after => before.map single ++ (a, b) :: after.map single
    | _, _ => []

/-- The ranges of a class, last one first, and how many characters they and the closing bracket take;
`none` if the class is not closed. A bracket or a dash that comes first stands for itself, and so does
a dash that comes last. -/
def classRanges (size : Nat) (first pending : Bool) (ranges : List (Char × Char)) :
    List Char → Except PatternFlaw (Option (List (Char × Char) × Nat))
  | [] => .ok none
  | c :: cs =>
      if c = ']' && !first then
        .ok (some (if pending then ('-', '-') :: ranges else ranges, size + 1))
      else if c = '-' && !first && !pending then classRanges (size + 1) false true ranges cs
      else
        match pending, ranges with
        | true, (a, _) :: others =>
            if c < a then .error (.descendingRange a c)
            else classRanges (size + 1) false false ((a, c) :: others) cs
        | _, _ => classRanges (size + 1) false false ((c, c) :: ranges) cs

/-- The class that begins after an opening bracket, and how many characters it takes. -/
def readClass (cs : List Char) : Except PatternFlaw (Option (Wildcard × Nat)) := do
  let negated := cs.head? = some '!' || cs.head? = some '^'
  let read ← if negated then classRanges 1 true false [] (cs.drop 1) else classRanges 0 true false [] cs
  return read.map fun (ranges, size) => (oneOf negated (ranges.flatMap byteRanges), size)

/-- An alternative that is being read: its steps so far, last one first, and the alternatives of the
same group that came before, first one first. -/
structure Branch where
  steps : List Wildcard := []
  finished : List (List Wildcard) := []

/-- Whether steps take nothing at all, being groups without alternatives. -/
def isBlank (steps : List Wildcard) : Bool :=
  steps.all fun
    | group [] => true
    | _ => false

namespace Branch

def push (b : Branch) (steps : List Wildcard) : Branch :=
  { b with steps := steps.reverse ++ b.steps }

/-- Put a step in place of the slash that was read last; directories stay directories. -/
def absorb (b : Branch) (step : Wildcard) : Branch :=
  match b.steps with
  | leadingDirectories :: _ => b
  | everythingBelow :: _ => b
  | _ :: steps => { b with steps := step :: steps }
  | [] => { b with steps := [step] }

/-- The alternatives read so far. -/
def alternatives (b : Branch) : List (List Wildcard) :=
  b.finished ++ [b.steps.reverse]

/-- Begin the next alternative. -/
def next (b : Branch) : Branch :=
  { finished := b.alternatives }

/-- The group that ends here; alternatives that take nothing do not count. -/
def close (b : Branch) : Wildcard :=
  group (b.alternatives.filter fun steps => !isBlank steps)

end Branch

/-- What two stars are, from the character before them and the text after them, and how many further
characters they take; `inGroup` says whether a group is open. -/
def doubleStar (inGroup : Bool) (b : Branch) (previous : Option Char) (after : List Char) :
    Branch × Nat :=
  let plain := (b.push [run, run], 1)
  if b.steps.isEmpty then
    match after with
    | [] => (b.push [leadingDirectories], 1)
    | '/' :: _ => (b.push [leadingDirectories], 2)
    | _ => plain
  else if previous ≠ some '/' && !(inGroup && (previous = some ',' || previous = some '\x7b')) then
    plain
  else
    match after with
    | [] => (b.absorb everythingBelow, 1)
    | '/' :: _ => (b.absorb innerDirectories, 2)
    | c :: _ => if inGroup && (c = ',' || c = '\x7d') then (b.absorb everythingBelow, 1) else plain

/-- Read a pattern with the open alternatives `b :: outer`. The first `skip` characters belong to a
step already read; `classes` says whether brackets may still open a class. -/
def readFrom : (skip : Nat) → (previous : Option Char) → (classes : Bool) → (b : Branch) →
    (outer : List Branch) → List Char → Except PatternFlaw (List Wildcard)
  | _, _, _, b, [], [] => .ok b.steps.reverse
  | _, _, _, _, _ :: _, [] => .error .unclosedGroup
  | skip + 1, _, classes, b, outer, c :: cs => readFrom skip (some c) classes b outer cs
  | 0, previous, classes, b, outer, c :: cs =>
      match c with
      | '?' => readFrom 0 (some c) classes (b.push [anyByte]) outer cs
      | '*' =>
          match cs with
          | '*' :: after =>
              let (b, size) := doubleStar (!outer.isEmpty) b previous after
              readFrom size (some c) classes b outer cs
          | _ => readFrom 0 (some c) classes (b.push [run]) outer cs
      | '[' =>
          if classes then
            match readClass cs with
            | .error flaw => .error flaw
            | .ok (some (step, size)) => readFrom size (some c) true (b.push [step]) outer cs
            | .ok none => readFrom 0 (some c) false (b.push (ofChar c)) outer cs
          else readFrom 0 (some c) false (b.push (ofChar c)) outer cs
      | '\x7b' => readFrom 0 (some c) classes {} (b :: outer) cs
      | '\x7d' =>
          match outer with
          | parent :: outer => readFrom 0 (some c) classes (parent.push [b.close]) outer cs
          | [] => .error .unopenedGroup
      | ',' =>
          match outer with
          | [] => readFrom 0 (some c) classes (b.push (ofChar c)) [] cs
          | _ => readFrom 0 (some c) classes b.next outer cs
      | '\\' =>
          match cs with
          | d :: _ => readFrom 1 (some c) classes (b.push (ofChar d)) outer cs
          | [] => .error .danglingEscape
      | _ => readFrom 0 (some c) classes (b.push (ofChar c)) outer cs

/-- The steps of a pattern. -/
def parse (pattern : List Char) : Except PatternFlaw (List Wildcard) :=
  readFrom 0 none true {} [] pattern

end Wildcard

end ScopeLint
