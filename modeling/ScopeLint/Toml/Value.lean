import ScopeLint.Decimal.Binary64

/-!
# TOML values

The values of a settings file. Tables keep their entries in the order in which they were written. An
array is written in brackets; a list of tables is given by headers in double brackets.
-/

namespace ScopeLint

structure Date where
  year : Nat
  month : Nat
  day : Nat
  deriving DecidableEq, Repr

structure TimeOfDay where
  hour : Nat
  minute : Nat
  second : Nat
  nanosecond : Nat
  deriving DecidableEq, Repr

/-- How far a time is from universal time: not at all, or some minutes to the east. -/
inductive Offset where
  | universal
  | minutes (east : Int)
  deriving DecidableEq, Repr

/-- A date, a time, or both; a time zone only with both. -/
inductive Datetime where
  | date (date : Date)
  | time (time : TimeOfDay)
  | dateTime (date : Date) (time : TimeOfDay) (offset : Option Offset)
  deriving DecidableEq, Repr

namespace Datetime

/-- A number with zeros in front, up to a width. -/
def padded (width n : Nat) : List Char :=
  let digits := Nat.toDigits 10 n
  List.replicate (width - digits.length) '0' ++ digits

def dateText (d : Date) : List Char :=
  padded 4 d.year ++ '-' :: padded 2 d.month ++ '-' :: padded 2 d.day

/-- Fractions of a second are written without trailing zeros. -/
def timeText (t : TimeOfDay) : List Char :=
  let fraction :=
    if t.nanosecond = 0 then []
    else '.' :: ((padded 9 t.nanosecond).reverse.dropWhile (· = '0')).reverse
  padded 2 t.hour ++ ':' :: padded 2 t.minute ++ ':' :: padded 2 t.second ++ fraction

def offsetText : Offset → List Char
  | .universal => ['Z']
  | .minutes east =>
      (if east < 0 then '-' else '+') :: padded 2 (east.natAbs / 60) ++
        ':' :: padded 2 (east.natAbs % 60)

/-- The text of a date or time in its usual form. -/
def text : Datetime → List Char
  | date d => dateText d
  | time t => timeText t
  | dateTime d t offset =>
      dateText d ++ 'T' :: timeText t ++
        match offset with
        | some o => offsetText o
        | none => []

end Datetime

inductive Toml where
  | string (value : List Char)
  | integer (value : Int)
  | float (value : Binary64)
  | boolean (value : Bool)
  | datetime (value : Datetime)
  | array (items : List Toml)
  | tables (items : List Toml)
  | table (entries : List (List Char × Toml))
  deriving Repr, Inhabited

end ScopeLint
