import ScopeLint.Decimal.Binary64

/-!
# The shortest decimals of floating-point numbers

A number is written with the fewest decimal digits that read back to it, and of those with the ones
nearest to it. What is left open, ties and the use of an exponent, is the writer's choice.
-/

namespace ScopeLint

/-- Which of two equally near neighbours is taken. -/
inductive Tie where
  | up
  | even
  deriving DecidableEq, Repr

/-- Whether the upper neighbour is taken, where the lower one is `below`. -/
def Tie.goesUp (below : Nat) : Tie → Bool
  | up => true
  | even => below % 2 = 1

/-- How a writer lays out a number: its choice in ties, and the places of the point, counted in digits
from the first one, that need no exponent; all of them if there are no bounds. -/
structure NumberStyle where
  tie : Tie
  places : Option (Int × Int)
  deriving DecidableEq, Repr

def NumberStyle.isPositional (style : NumberStyle) (place : Int) : Bool :=
  match style.places with
  | some (least, most) => least ≤ place && place ≤ most
  | none => true

namespace Decimal

/-- Remove the zeros at the end of the digits, at most `limit` of them. -/
def stripZeros : (limit : Nat) → Decimal → Decimal
  | 0, d => d
  | limit + 1, d =>
      if d.digits % 10 = 0 then
        stripZeros limit { d with digits := d.digits / 10, exponent := d.exponent + 1 }
      else d

end Decimal

namespace Binary64

/-- Four times a number and the bounds of the decimals that read back to it, over the common
denominator of a decimal grid: `low ≤ 4 * x ≤ high`, where a grid point counts `unit`. -/
structure Window where
  low : Nat
  middle : Nat
  high : Nat
  unit : Nat
  closed : Bool
  deriving DecidableEq, Repr

/-- The window of a finite number on the grid of multiples of `10 ^ exponent`. -/
def window (x : Binary64) (exponent : Int) : Window :=
  let m := x.significand
  let e := x.power - 2
  let scale := Nat.pow 2 e.toNat * Nat.pow 10 (-exponent).toNat
  { low := (if x.fractionField = 0 && 1 < x.exponentField then 4 * m - 1 else 4 * m - 2) * scale
    middle := 4 * m * scale
    high := (4 * m + 2) * scale
    unit := Nat.pow 10 exponent.toNat * Nat.pow 2 (-e).toNat
    closed := m % 2 = 0 }

/-- Whether a grid point reads back to the number. -/
def Window.holds (w : Window) (k : Nat) : Bool :=
  if w.closed then w.low ≤ k * w.unit && k * w.unit ≤ w.high
  else w.low < k * w.unit && k * w.unit < w.high

/-- Whether the grid point above the number is preferred to the one below: it is nearer, or equally
near and the choice that `tie` makes. -/
def Window.prefersAbove (w : Window) (tie : Tie) (below : Nat) : Bool :=
  let up := (below + 1) * w.unit - w.middle
  let down := w.middle - below * w.unit
  up < down || (up = down && tie.goesUp below)

/-- The grid point next to the number that reads back to it, or the preferred one if both do. -/
def Window.nearest? (w : Window) (tie : Tie) : Option Nat :=
  let below := w.middle / w.unit
  let above := below + 1
  if w.holds below then
    if w.holds above && w.prefersAbove tie below then some above else some below
  else if w.holds above then some above
  else none

/-- The exponent of the leading decimal digit of a positive number. -/
def leadingExponent (x : Binary64) : Int :=
  let num := x.significand * Nat.pow 2 x.power.toNat
  let den := Nat.pow 2 (-x.power).toNat
  let estimate : Int := (Decimal.width num : Int) - Decimal.width den
  if Nat.pow 10 estimate.toNat * den ≤ num * Nat.pow 10 (-estimate).toNat then estimate else estimate - 1

/-- The decimal with the fewest digits that reads back to a finite number. -/
def shortest (tie : Tie) (x : Binary64) : Decimal :=
  if x.significand = 0 then ⟨x.isNegative, 0, 0⟩
  else
    let top := x.leadingExponent
    let found := (List.range 17).findSome? fun (more : Nat) =>
      let exponent : Int := top - more
      ((x.window exponent).nearest? tie).map fun k => (⟨x.isNegative, k, exponent⟩ : Decimal)
    match found with
    | some d => d.stripZeros 17
    | none => ⟨x.isNegative, (x.window (top - 17)).middle / (x.window (top - 17)).unit, top - 17⟩

/-- The digits of a decimal without exponent, with at least one digit on each side of the point. -/
def positional (d : Decimal) : List Char :=
  let digits := Nat.toDigits 10 d.digits
  let sign := if d.negative then ['-'] else []
  if 0 ≤ d.exponent then
    sign ++ digits ++ List.replicate (if d.digits = 0 then 0 else d.exponent.toNat) '0' ++ ['.', '0']
  else
    let places := (-d.exponent).toNat
    let padded := List.replicate (places + 1 - digits.length) '0' ++ digits
    sign ++ padded.take (padded.length - places) ++ '.' :: padded.drop (padded.length - places)

/-- The digits of a decimal with an exponent: one digit before the point, which is left out when no
digit follows it, and the sign of the exponent in any case. -/
def scientific (d : Decimal) : List Char :=
  let digits := Nat.toDigits 10 d.digits
  let exponent : Int := d.exponent + digits.length - 1
  (if d.negative then ['-'] else []) ++
    (match digits with
      | first :: more => if more.isEmpty then [first] else first :: '.' :: more
      | [] => []) ++
    'e' :: (if exponent < 0 then '-' else '+') :: Nat.toDigits 10 exponent.natAbs

/-- The number as text. -/
def text (style : NumberStyle) (x : Binary64) : List Char :=
  if x.isNaN then "NaN".toList
  else if !x.isFinite then (if x.isNegative then "-inf" else "inf").toList
  else
    let d := x.shortest style.tie
    if style.isPositional (d.exponent + Decimal.width d.digits) then positional d else scientific d

end Binary64

end ScopeLint
