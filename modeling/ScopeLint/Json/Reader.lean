import ScopeLint.Json.Value
import ScopeLint.Text.Digits
import ScopeLint.Text.Search

/-!
# Reading JSON

The reader never fails: where the text ceases to be JSON it puts `cut` and stops. An item or member
that lacks its comma, colon or value is followed, or replaced, by `cut`. What stands in place of a key
is read as a value, so that it can be named in a complaint.
-/

namespace ScopeLint.Json

open Text (hexCode? natOfDigits)

def isSpace (c : Char) : Bool :=
  c = ' ' || c = '\n' || c = '\t' || c = '\r'

def skipSpace (cs : List Char) : List Char :=
  cs.dropWhile isSpace

/-- The character that a backslash and one letter stand for. -/
def unescape? (c : Char) : Option Char :=
  if c = '"' ∨ c = '\\' ∨ c = '/' then some c
  else if c = 'b' then some (Char.ofNat 0x08)
  else if c = 'f' then some (Char.ofNat 0x0C)
  else if c = 'n' then some '\n'
  else if c = 'r' then some '\r'
  else if c = 't' then some '\t'
  else none

/-- A part of a string literal: a character, or a code of sixteen bits written in hexadecimal. -/
inductive Piece where
  | plain (c : Char)
  | code (n : Nat)
  deriving DecidableEq, Repr

/-- Read the parts of a string literal after its opening quote, and give what follows the closing
one. -/
def readPieces : List Char → Option (List Piece × List Char)
  | [] => none
  | '"' :: cs => some ([], cs)
  | '\\' :: 'u' :: a :: b :: c :: d :: cs =>
      match hexCode? a b c d with
      | some n => (readPieces cs).map fun read => (.code n :: read.1, read.2)
      | none => none
  | '\\' :: e :: cs =>
      match unescape? e with
      | some c => (readPieces cs).map fun read => (.plain c :: read.1, read.2)
      | none => none
  | c :: cs =>
      if c.toNat < 0x20 ∨ c = '\\' then none
      else (readPieces cs).map fun read => (.plain c :: read.1, read.2)

def isHighSurrogate (n : Nat) : Bool :=
  0xD800 ≤ n && n < 0xDC00

def isLowSurrogate (n : Nat) : Bool :=
  0xDC00 ≤ n && n < 0xE000

/-- The text of a literal, where `high` is a surrogate that waits for its other half. -/
def joinPieces : (high : Option Nat) → List Piece → Option (List Char)
  | none, [] => some []
  | none, .plain c :: pieces => (joinPieces none pieces).map (c :: ·)
  | none, .code n :: pieces =>
      if isHighSurrogate n then joinPieces (some n) pieces
      else if isLowSurrogate n then none
      else (joinPieces none pieces).map (Char.ofNat n :: ·)
  | some high, .code low :: pieces =>
      if isLowSurrogate low then
        let code := 0x10000 + (high - 0xD800) * 0x400 + (low - 0xDC00)
        (joinPieces none pieces).map (Char.ofNat code :: ·)
      else none
  | some _, .plain _ :: _ => none
  | some _, [] => none

/-- Read a string literal after its opening quote. The text is `none` when the literal has half a
surrogate pair; the result is `none` when it is no literal. -/
def readString (cs : List Char) : Option (Option (List Char) × List Char) :=
  (readPieces cs).map fun read => (joinPieces none read.1, read.2)

/-- The fraction of a number: its digits, which are empty if there is no fraction. -/
def readFraction : List Char → Option (List Char × List Char)
  | '.' :: cs =>
      match cs.span Char.isDigit with
      | ([], _) => none
      | parts => some parts
  | cs => some ([], cs)

/-- The digits of an exponent, after its sign. -/
def readExponentDigits (negative : Bool) (cs : List Char) : Option (Option Int × List Char) :=
  match cs.span Char.isDigit with
  | ([], _) => none
  | (digits, rest) =>
      let n : Int := natOfDigits digits
      some (some (if negative then -n else n), rest)

/-- The exponent of a number, if it has one. -/
def readExponent : List Char → Option (Option Int × List Char)
  | [] => some (none, [])
  | c :: cs =>
      if c = 'e' ∨ c = 'E' then
        match cs with
        | '+' :: digits => readExponentDigits false digits
        | '-' :: digits => readExponentDigits true digits
        | digits => readExponentDigits false digits
      else some (none, c :: cs)

/-- Read a number after its sign. A whole part of several digits does not begin with zero. -/
def readUnsigned (negative : Bool) (cs : List Char) : Option (Number × List Char) :=
  match cs.span Char.isDigit with
  | ([], _) => none
  | ('0' :: _ :: _, _) => none
  | (whole, rest) =>
      match readFraction rest with
      | none => none
      | some (fraction, rest) =>
          match readExponent rest with
          | none => none
          | some (exponent, rest) =>
              if fraction.isEmpty ∧ exponent = none then
                let n := natOfDigits whole
                some (if negative then .minus n else .natural n, rest)
              else
                some (.decimal negative whole fraction (exponent.getD 0), rest)

def readNumber : List Char → Option (Number × List Char)
  | '-' :: cs => readUnsigned true cs
  | cs => readUnsigned false cs

/-- A value that is written as a fixed word. -/
def readWord (word : String) (value : Json) (cs : List Char) : Json × Option (List Char) :=
  match Text.stripPrefix? word.toList cs with
  | some rest => (value, some rest)
  | none => (cut, none)

/-- Whether a value stands as the key of a member. -/
def isKey : Json → Bool
  | string _ => true
  | halfPair => true
  | _ => false

/-- A member of an object, by its key and its value as they are read. -/
def member (key value : Json) : List Char × Json :=
  match key with
  | string text => (text, value)
  | _ => ([], unkeyed key value)

mutual

/-- Read a value, and give what follows it, or `none` when the text ceased to be JSON. Every nested
value takes at least one character, so the length of the text is fuel enough. -/
def readValue : (fuel : Nat) → List Char → Json × Option (List Char)
  | 0, _ => (cut, none)
  | fuel + 1, cs =>
      match skipSpace cs with
      | [] => (cut, none)
      | '"' :: cs =>
          match readString cs with
          | some (some text, rest) => (string text, some rest)
          | some (none, rest) => (halfPair, some rest)
          | none => (cut, none)
      | '[' :: cs =>
          match skipSpace cs with
          | ']' :: rest => (array [], some rest)
          | cs =>
              let read := readItems fuel cs
              (array read.1, read.2)
      | '\x7b' :: cs =>
          match skipSpace cs with
          | '\x7d' :: rest => (object [], some rest)
          | cs =>
              let read := readMembers fuel cs
              (object read.1, read.2)
      | c :: cs =>
          if c = 'n' then readWord "null" null (c :: cs)
          else if c = 't' then readWord "true" (bool true) (c :: cs)
          else if c = 'f' then readWord "false" (bool false) (c :: cs)
          else
            match readNumber (c :: cs) with
            | some (n, rest) => (number n, some rest)
            | none => (cut, none)

/-- Read the items of an array and its closing bracket. -/
def readItems : (fuel : Nat) → List Char → List Json × Option (List Char)
  | 0, _ => ([cut], none)
  | fuel + 1, cs =>
      match readValue fuel cs with
      | (item, none) => ([item], none)
      | (item, some rest) =>
          match skipSpace rest with
          | ']' :: rest => ([item], some rest)
          | ',' :: rest =>
              let read := readItems fuel rest
              (item :: read.1, read.2)
          | _ => ([item, cut], none)

/-- Read the members of an object and its closing brace. -/
def readMembers : (fuel : Nat) → List Char → List (List Char × Json) × Option (List Char)
  | 0, _ => ([member cut cut], none)
  | fuel + 1, cs =>
      match readValue fuel cs with
      | (key, none) => ([member key cut], none)
      | (key, some rest) =>
          match key.isKey, skipSpace rest with
          | true, ':' :: rest =>
              match readValue fuel rest with
              | (value, none) => ([member key value], none)
              | (value, some rest) =>
                  match skipSpace rest with
                  | '\x7d' :: rest => ([member key value], some rest)
                  | ',' :: rest =>
                      let read := readMembers fuel rest
                      (member key value :: read.1, read.2)
                  | _ => ([member key value, member cut cut], none)
          | _, _ => ([member key cut], none)

end

/-- Read a text as one value, and tell whether nothing but blanks follows it. -/
def read (text : List Char) : Json × Bool :=
  match readValue (2 * text.length + 1) text with
  | (value, some rest) => (value, (skipSpace rest).isEmpty)
  | (value, none) => (value, false)

end ScopeLint.Json
