/-!
# Decimals and 64-bit floating-point numbers

A floating-point number is kept as its 64 bits. Reading a decimal rounds to the nearest number, ties
to even, and so does every product and quotient.
-/

namespace ScopeLint

/-- The number `digits * 10 ^ exponent`, with a sign. -/
structure Decimal where
  negative : Bool
  digits : Nat
  exponent : Int
  deriving DecidableEq, Repr

/-- A floating-point number in the format with 52 fraction bits and 11 exponent bits. -/
structure Binary64 where
  bits : UInt64
  deriving DecidableEq, Repr

namespace Decimal

/-- Number of decimal digits. -/
def width (n : Nat) : Nat :=
  (Nat.toDigits 10 n).length

end Decimal

namespace Binary64

def fractionBits : Nat := 52

def isNegative (x : Binary64) : Bool :=
  Nat.pow 2 63 ≤ x.bits.toNat

def exponentField (x : Binary64) : Nat :=
  x.bits.toNat / Nat.pow 2 fractionBits % Nat.pow 2 11

def fractionField (x : Binary64) : Nat :=
  x.bits.toNat % Nat.pow 2 fractionBits

def isFinite (x : Binary64) : Bool :=
  x.exponentField != 2047

def isNaN (x : Binary64) : Bool :=
  !x.isFinite && x.fractionField != 0

def withSign (negative : Bool) (magnitude : UInt64) : Binary64 :=
  if negative then ⟨magnitude ||| 0x8000000000000000⟩ else ⟨magnitude⟩

def infinity (negative : Bool) : Binary64 :=
  withSign negative 0x7FF0000000000000

def zero (negative : Bool) : Binary64 :=
  withSign negative 0

def nan (negative : Bool) : Binary64 :=
  withSign negative 0x7FF8000000000000

/-- The number nearest to a decimal. Decimals far outside the range need no arithmetic. -/
def ofDecimal (d : Decimal) : Binary64 :=
  let magnitude := d.exponent + Decimal.width d.digits
  if d.digits = 0 || magnitude < -400 then zero d.negative
  else if 400 < magnitude then infinity d.negative
  else
    withSign d.negative
      (Float.ofScientific d.digits (decide (d.exponent < 0)) d.exponent.natAbs).toBits

/-- The significand of a finite number. -/
def significand (x : Binary64) : Nat :=
  if x.exponentField = 0 then x.fractionField else Nat.pow 2 fractionBits + x.fractionField

/-- The power of two by which the significand of a finite number is scaled. -/
def power (x : Binary64) : Int :=
  if x.exponentField = 0 then -1074 else (x.exponentField : Int) - 1075

/-- Whether a number is zero, of either sign. -/
def isZero (x : Binary64) : Bool :=
  x.exponentField = 0 && x.fractionField = 0

def product (x y : Binary64) : Binary64 :=
  ⟨(Float.ofBits x.bits * Float.ofBits y.bits).toBits⟩

def quotient (x y : Binary64) : Binary64 :=
  ⟨(Float.ofBits x.bits / Float.ofBits y.bits).toBits⟩

/-- The greatest power of ten that the format holds has this exponent. -/
def topExponent : Nat := 308

/-- The number nearest to a power of ten. -/
def tenTo (n : Nat) : Binary64 :=
  ofDecimal ⟨false, 1, n⟩

/-- A number times a power of ten, as far as it is finite. The number is multiplied or divided once,
and rounded; below the least power of ten it is first divided by the greatest one, at most `steps`
times. -/
def scaled? : (steps : Nat) → Binary64 → (exponent : Int) → Option Binary64
  | steps, x, exponent =>
      if exponent.natAbs ≤ topExponent then
        if 0 ≤ exponent then
          let y := x.product (tenTo exponent.natAbs)
          if y.isFinite then some y else none
        else some (x.quotient (tenTo exponent.natAbs))
      else if x.isZero then some x
      else if 0 ≤ exponent then none
      else
        match steps with
        | 0 => some (zero x.isNegative)
        | steps + 1 => scaled? steps (x.quotient (tenTo topExponent)) (exponent + topExponent)

end Binary64

end ScopeLint
