import ScopeLint.Text.Digits
import ScopeLint.Toml.Value

/-!
# Reading TOML strings and keys

A string is basic, with escapes, or literal, without; either may span several lines when it is written
between three quotes. A line end inside a string is a line feed, however it is written.
-/

namespace ScopeLint.Toml

open Text (hexCode?)

/-- Whether a character may stand for itself in a string or a comment. -/
def isPrintable (c : Char) : Bool :=
  c = '\t' || (0x20 ≤ c.toNat && c.toNat != 0x7F)

/-- The character with a code, if the code is one of a character. -/
def charOf? (code : Nat) : Option Char :=
  if code < 0xD800 ∨ (0xDFFF < code ∧ code < 0x110000) then some (Char.ofNat code) else none

/-- The character that a backslash and one letter stand for. -/
def unescape? (c : Char) : Option Char :=
  if c = '"' ∨ c = '\\' then some c
  else if c = 'b' then some (Char.ofNat 0x08)
  else if c = 'f' then some (Char.ofNat 0x0C)
  else if c = 'n' then some '\n'
  else if c = 'r' then some '\r'
  else if c = 't' then some '\t'
  else none

/-- The character written with four hexadecimal digits. -/
def shortCode? (a b c d : Char) : Option Char :=
  (hexCode? a b c d).bind charOf?

/-- The character written with eight hexadecimal digits. -/
def longCode? (a b c d e f g h : Char) : Option Char :=
  (hexCode? a b c d).bind fun high =>
    (hexCode? e f g h).bind fun low => charOf? (high * 0x10000 + low)

def prepend (c : Char) (read : List Char × List Char) : List Char × List Char :=
  (c :: read.1, read.2)

/-- Read a basic string after its opening quote. -/
def readBasic : List Char → Option (List Char × List Char)
  | [] => none
  | '"' :: cs => some ([], cs)
  | '\\' :: 'U' :: a :: b :: c :: d :: e :: f :: g :: h :: cs =>
      match longCode? a b c d e f g h with
      | some x => (readBasic cs).map (prepend x)
      | none => none
  | '\\' :: 'u' :: a :: b :: c :: d :: cs =>
      match shortCode? a b c d with
      | some x => (readBasic cs).map (prepend x)
      | none => none
  | '\\' :: e :: cs =>
      match unescape? e with
      | some x => (readBasic cs).map (prepend x)
      | none => none
  | c :: cs => if isPrintable c ∧ c ≠ '\\' then (readBasic cs).map (prepend c) else none

/-- Whether nothing but blanks stands before the end of the line. -/
def atLineEnd (cs : List Char) : Bool :=
  match cs.dropWhile fun c => c = ' ' || c = '\t' with
  | '\n' :: _ => true
  | '\r' :: '\n' :: _ => true
  | _ => false

/-- Read a basic string of several lines after its opening quotes. After a backslash at the end of a
line, blanks and line ends are skipped up to the next character. -/
def readBasicLines : (skipping : Bool) → List Char → Option (List Char × List Char)
  | _, [] => none
  | _, '"' :: '"' :: '"' :: '"' :: '"' :: cs => some (['"', '"'], cs)
  | _, '"' :: '"' :: '"' :: '"' :: cs => some (['"'], cs)
  | _, '"' :: '"' :: '"' :: cs => some ([], cs)
  | _, '\\' :: 'U' :: a :: b :: c :: d :: e :: f :: g :: h :: cs =>
      match longCode? a b c d e f g h with
      | some x => (readBasicLines false cs).map (prepend x)
      | none => none
  | _, '\\' :: 'u' :: a :: b :: c :: d :: cs =>
      match shortCode? a b c d with
      | some x => (readBasicLines false cs).map (prepend x)
      | none => none
  | _, '\\' :: e :: cs =>
      if atLineEnd (e :: cs) then readBasicLines true cs
      else
        match unescape? e with
        | some x => (readBasicLines false cs).map (prepend x)
        | none => none
  | skipping, '\r' :: '\n' :: cs =>
      if skipping then readBasicLines true cs else (readBasicLines false cs).map (prepend '\n')
  | skipping, c :: cs =>
      if skipping ∧ (c = ' ' ∨ c = '\t' ∨ c = '\n') then readBasicLines true cs
      else if c = '\n' ∨ (isPrintable c ∧ c ≠ '\\') then (readBasicLines false cs).map (prepend c)
      else none

/-- Read a literal string after its opening quote. -/
def readLiteral : List Char → Option (List Char × List Char)
  | [] => none
  | c :: cs =>
      if c = '\x27' then some ([], cs)
      else if isPrintable c then (readLiteral cs).map (prepend c)
      else none

/-- Read a literal string of several lines after its opening quotes. -/
def readLiteralLines : List Char → Option (List Char × List Char)
  | [] => none
  | '\x27' :: '\x27' :: '\x27' :: '\x27' :: '\x27' :: cs => some (['\x27', '\x27'], cs)
  | '\x27' :: '\x27' :: '\x27' :: '\x27' :: cs => some (['\x27'], cs)
  | '\x27' :: '\x27' :: '\x27' :: cs => some ([], cs)
  | '\r' :: '\n' :: cs => (readLiteralLines cs).map (prepend '\n')
  | c :: cs =>
      if c = '\n' ∨ isPrintable c then (readLiteralLines cs).map (prepend c) else none

/-- A line end directly after opening quotes does not count. -/
def dropLineEnd : List Char → List Char
  | '\n' :: cs => cs
  | '\r' :: '\n' :: cs => cs
  | cs => cs

/-- Read a string of any form; `none` if there is none. -/
def readString : List Char → Option (List Char × List Char)
  | '"' :: '"' :: '"' :: cs => readBasicLines false (dropLineEnd cs)
  | '"' :: cs => readBasic cs
  | '\x27' :: '\x27' :: '\x27' :: cs => readLiteralLines (dropLineEnd cs)
  | '\x27' :: cs => readLiteral cs
  | _ => none

def isBareKeyChar (c : Char) : Bool :=
  c.isAlphanum || c = '_' || c = '-'

/-- Read one part of a key: a string on one line, or a bare word. -/
def readKeyPart : List Char → Option (List Char × List Char)
  | [] => none
  | c :: cs =>
      if c = '"' then readBasic cs
      else if c = '\x27' then readLiteral cs
      else
        match (c :: cs).span isBareKeyChar with
        | ([], _) => none
        | parts => some parts

end ScopeLint.Toml
