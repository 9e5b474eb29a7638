import ScopeLint.Text.Digits
import ScopeLint.Text.Search
import ScopeLint.Toml.Value

/-!
# Reading TOML numbers and dates

Every reader takes the text from where it stands and gives the value with the text after it, or
`none` if no such value begins there.
-/

namespace ScopeLint.Toml

open Text (natOfDigits hexValue?)

/-- Further digits of a number; a single underscore may stand before each. -/
def moreDigits (isDigit : Char → Bool) : List Char → Option (List Char × List Char)
  | [] => some ([], [])
  | ['_'] => none
  | '_' :: c :: cs =>
      if isDigit c then (moreDigits isDigit cs).map fun read => (c :: read.1, read.2) else none
  | c :: cs =>
      if isDigit c then (moreDigits isDigit cs).map fun read => (c :: read.1, read.2)
      else some ([], c :: cs)

/-- One or more digits. -/
def readDigits (isDigit : Char → Bool) : List Char → Option (List Char × List Char)
  | [] => none
  | c :: cs =>
      if isDigit c then (moreDigits isDigit cs).map fun read => (c :: read.1, read.2) else none

def readSign : List Char → Bool × List Char
  | '-' :: cs => (true, cs)
  | '+' :: cs => (false, cs)
  | cs => (false, cs)

/-- A whole number in base ten; it is zero or does not begin with zero. -/
def readWhole (cs : List Char) : Option (Bool × List Char × List Char) :=
  match readSign cs with
  | (negative, '0' :: rest) => some (negative, ['0'], rest)
  | (negative, rest) => (readDigits Char.isDigit rest).map fun read => (negative, read)

/-- The value of digits in a base. -/
def valueInBase (base : Nat) (digits : List Char) : Nat :=
  digits.foldl (fun n c => n * base + (hexValue? c).getD 0) 0

/-- An integer that fits in 64 bits with a sign. -/
def bounded (value : Int) (rest : List Char) : Option (Toml × List Char) :=
  if -(Int.pow 2 63) ≤ value ∧ value < Int.pow 2 63 then some (.integer value, rest) else none

def readInBase (base : Nat) (cs : List Char) : Option (Toml × List Char) :=
  (readDigits (fun c => (hexValue? c).any (· < base)) cs).bind fun (digits, rest) =>
    bounded (valueInBase base digits) rest

def readInteger : List Char → Option (Toml × List Char)
  | '0' :: 'x' :: cs => readInBase 16 cs
  | '0' :: 'o' :: cs => readInBase 8 cs
  | '0' :: 'b' :: cs => readInBase 2 cs
  | cs =>
      (readWhole cs).bind fun (negative, digits, rest) =>
        let n : Int := natOfDigits digits
        bounded (if negative then -n else n) rest

/-- The exponent of a number, after its letter. -/
def readExponent (cs : List Char) : Option (Int × List Char) :=
  match readSign cs with
  | (negative, rest) =>
      (readDigits Char.isDigit rest).map fun (digits, rest) =>
        let n : Int := natOfDigits digits
        (if negative then -n else n, rest)

/-- The exponent of a number, or zero if there is none. -/
def readExponentPart : List Char → Option (Int × List Char)
  | [] => some (0, [])
  | c :: cs => if c = 'e' ∨ c = 'E' then readExponent cs else some (0, c :: cs)

/-- A number that is too large is refused, unless it is negative. -/
def ofDecimal (d : Decimal) (rest : List Char) : Option (Toml × List Char) :=
  let value := Binary64.ofDecimal d
  if value = Binary64.infinity false then none else some (.float value, rest)

/-- A number with a fraction or an exponent, or a name of infinity or of no number. -/
def readFloat (cs : List Char) : Option (Toml × List Char) :=
  match readSign cs with
  | (negative, 'i' :: 'n' :: 'f' :: rest) => some (.float (Binary64.infinity negative), rest)
  | (negative, 'n' :: 'a' :: 'n' :: rest) => some (.float (Binary64.nan negative), rest)
  | _ =>
      (readWhole cs).bind fun (negative, whole, rest) =>
        match rest with
        | '.' :: rest =>
            (readDigits Char.isDigit rest).bind fun (fraction, rest) =>
              (readExponentPart rest).bind fun (exponent, rest) =>
                ofDecimal ⟨negative, natOfDigits (whole ++ fraction), exponent - fraction.length⟩ rest
        | c :: rest =>
            if c = 'e' ∨ c = 'E' then
              (readExponent rest).bind fun (exponent, rest) =>
                ofDecimal ⟨negative, natOfDigits whole, exponent⟩ rest
            else none
        | [] => none

/-- A number of exactly `count` digits, within bounds. -/
def readField (count low high : Nat) (cs : List Char) : Option (Nat × List Char) :=
  let digits := cs.take count
  let n := natOfDigits digits
  if digits.length = count ∧ digits.all Char.isDigit ∧ low ≤ n ∧ n ≤ high then
    some (n, cs.drop count)
  else none

def expect (c : Char) : List Char → Option (List Char)
  | [] => none
  | d :: cs => if c = d then some cs else none

def isLeapYear (year : Nat) : Bool :=
  year % 4 = 0 && (year % 100 != 0 || year % 400 = 0)

def daysInMonth (year month : Nat) : Nat :=
  if month = 2 then (if isLeapYear year then 29 else 28)
  else if [4, 6, 9, 11].contains month then 30
  else 31

def readDate (cs : List Char) : Option (Date × List Char) := do
  let (year, cs) ← readField 4 0 9999 cs
  let (month, cs) ← readField 2 1 12 (← expect '-' cs)
  let (day, cs) ← readField 2 1 31 (← expect '-' cs)
  if day ≤ daysInMonth year month then return (⟨year, month, day⟩, cs) else none

/-- The fraction of a second, in nanoseconds; further digits are dropped. -/
def readNanoseconds : List Char → Option (Nat × List Char)
  | '.' :: cs =>
      match cs.span Char.isDigit with
      | ([], _) => none
      | (digits, rest) =>
          let kept := digits.take 9
          some (natOfDigits kept * Nat.pow 10 (9 - kept.length), rest)
  | cs => some (0, cs)

/-- A time of day, with an hour up to `lastHour`. -/
def readTime (lastHour : Nat) (cs : List Char) : Option (TimeOfDay × List Char) := do
  let (hour, cs) ← readField 2 0 lastHour cs
  let (minute, cs) ← readField 2 0 59 (← expect ':' cs)
  let (second, cs) ← readField 2 0 60 (← expect ':' cs)
  let (nanosecond, cs) ← readNanoseconds cs
  return (⟨hour, minute, second, nanosecond⟩, cs)

def readOffsetMinutes (sign : Int) (cs : List Char) : Option (Offset × List Char) := do
  let (hours, cs) ← readField 2 0 23 cs
  let (minutes, cs) ← readField 2 0 59 (← expect ':' cs)
  return (.minutes (sign * (hours * 60 + minutes)), cs)

def readOffset : List Char → Option (Offset × List Char)
  | [] => none
  | c :: cs =>
      if c = 'Z' ∨ c = 'z' then some (.universal, cs)
      else if c = '+' then readOffsetMinutes 1 cs
      else if c = '-' then readOffsetMinutes (-1) cs
      else none

/-- The time that follows a date, after the letter `T` or a blank, with its time zone if it has one. -/
def readTimePart : List Char → Option (TimeOfDay × Option Offset × List Char)
  | [] => none
  | c :: cs =>
      if c = 'T' ∨ c = 't' ∨ c = ' ' then
        (readTime 23 cs).map fun (time, rest) =>
          match readOffset rest with
          | some (offset, rest) => (time, some offset, rest)
          | none => (time, none, rest)
      else none

def readDatetime (cs : List Char) : Option (Toml × List Char) :=
  match readDate cs with
  | some (date, rest) =>
      match readTimePart rest with
      | some (time, offset, rest) => some (.datetime (.dateTime date time offset), rest)
      | none => some (.datetime (.date date), rest)
  | none => (readTime 23 cs).map fun (time, rest) => (.datetime (.time time), rest)

/-- The time zone that a whole text gives, if any; it is within a day of universal time. -/
def zoneOfText? : List Char → Option (Option Offset)
  | [] => some none
  | c :: cs =>
      if c = 'Z' ∨ c = 'z' then if cs.isEmpty then some (some .universal) else none
      else if c = '+' ∨ c = '-' then do
        let (hours, cs) ← readField 2 0 99 cs
        let (minutes, cs) ← readField 2 0 99 (← expect ':' cs)
        let total : Int := hours * 60 + minutes
        if cs.isEmpty ∧ total ≤ 24 * 60 then
          return some (.minutes (if c = '-' then -total else total))
        else none
      else none

/-- The date or time that a whole text gives. The hour may be 24 here. -/
def datetimeOfText? (cs : List Char) : Option Datetime :=
  if cs[2]? = some ':' then do
    let (time, rest) ← readTime 24 cs
    if rest.isEmpty then return .time time else none
  else do
    let (date, rest) ← readDate cs
    match rest with
    | [] => return .date date
    | c :: rest =>
        if c = 'T' ∨ c = 't' ∨ c = ' ' then
          let (time, rest) ← readTime 24 rest
          return .dateTime date time (← zoneOfText? rest)
        else none

/-- A value written as a fixed word. -/
def readWord (word : List Char) (value : Toml) (cs : List Char) : Option (Toml × List Char) :=
  (Text.stripPrefix? word cs).map fun rest => (value, rest)

/-- A date, a number or a truth value. -/
def readScalar (cs : List Char) : Option (Toml × List Char) :=
  readWord "true".toList (.boolean true) cs <|> readWord "false".toList (.boolean false) cs <|>
    readDatetime cs <|> readFloat cs <|> readInteger cs

end ScopeLint.Toml
