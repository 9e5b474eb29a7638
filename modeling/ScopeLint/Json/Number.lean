import ScopeLint.Misfit
import ScopeLint.Text.Digits

/-!
# JSON numbers

A number is kept by the form of its text: an integer, or digits with a fraction or an exponent. Its
value as a floating-point number is worked out along the text. The digits are gathered into a
significand of 64 bits; a digit that no longer fits is dropped, and counts as a power of ten if it
stands before the point. The significand is rounded, and then scaled. So the last bit may differ from
that of the nearest number.
-/

namespace ScopeLint.Json

/-- A number by the form of its text: digits, digits after a minus sign, or one with a fraction or an
exponent. -/
inductive Number where
  | natural (value : Nat)
  | minus (value : Nat)
  | decimal (negative : Bool) (whole fraction : List Char) (exponent : Int)
  deriving DecidableEq, Repr

/-- The numbers in complaints: a tie goes to the even digit, and a number has an exponent unless its
point stands close to its digits. -/
def numberStyle : NumberStyle where
  tie := .even
  places := some (-4, 16)

/-- Append digits to a significand as long as it has 64 bits, and give the digits that are left. -/
def gather : (significand : Nat) → List Char → Nat × List Char
  | significand, [] => (significand, [])
  | significand, c :: cs =>
      let longer := significand * 10 + Text.natOfDigits [c]
      if longer < Nat.pow 2 64 then gather longer cs else (significand, c :: cs)

/-- The floating-point number that digits stand for, if it is finite. -/
def digitsValue? (whole fraction : List Char) (exponent : Int) : Option Binary64 :=
  let (significand, more) := gather 0 whole
  let (significand, dropped) := gather significand fraction
  let places : Int := fraction.length - dropped.length
  (Binary64.ofDecimal ⟨false, significand, 0⟩).scaled? 3 (exponent + more.length - places)

namespace Number

/-- A floating-point number as what was found. -/
def foundFloat (negative : Bool) (magnitude : Binary64) : Found :=
  .float (.withSign negative magnitude.bits) numberStyle

/-- How a number is understood: an integer if it is written as one and fits in 64 bits, and otherwise
a floating-point number, which has to be finite. -/
def found? : Number → Option Found
  | natural n =>
      if n < Nat.pow 2 64 then some (.integer n)
      else (digitsValue? (Nat.toDigits 10 n) [] 0).map (foundFloat false)
  | minus n =>
      if 0 < n ∧ n ≤ Nat.pow 2 63 then some (.integer (-n))
      else (digitsValue? (Nat.toDigits 10 n) [] 0).map (foundFloat true)
  | decimal negative whole fraction exponent =>
      (digitsValue? whole fraction exponent).map (foundFloat negative)

def write : Number → List Char
  | natural n => Nat.toDigits 10 n
  | minus n => '-' :: Nat.toDigits 10 n
  | decimal negative whole fraction exponent =>
      (if negative then ['-'] else []) ++ whole ++
        (if fraction.isEmpty then [] else '.' :: fraction) ++ 'e' :: (toString exponent).toList

end Number

end ScopeLint.Json
