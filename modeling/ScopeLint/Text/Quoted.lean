import ScopeLint.Text.Hidden

/-!
# Quoted texts

A text between double quotes, as messages show it: quotes, backslashes and the common controls have
short escapes, other hidden characters are written by their code point. A text that goes to a terminal
without quotes has the controls spelled out that a terminal would obey.
-/

namespace ScopeLint.Text

/-- The digits of a number in base sixteen. -/
def hexDigits (n : Nat) : List Char :=
  Nat.toDigits 16 n

/-- A character inside double quotes. -/
def quoteChar (c : Char) : List Char :=
  if c = '"' then ['\\', '"']
  else if c = '\\' then ['\\', '\\']
  else if c = '\n' then ['\\', 'n']
  else if c = '\r' then ['\\', 'r']
  else if c = '\t' then ['\\', 't']
  else if c.toNat = 0 then ['\\', '0']
  else if isHidden c then ['\\', 'u', '\x7b'] ++ hexDigits c.toNat ++ ['\x7d']
  else [c]

def quote (cs : List Char) : List Char :=
  '"' :: cs.flatMap quoteChar ++ ['"']

/-- A character in a text for a terminal. -/
def disarmChar (c : Char) : List Char :=
  let n := c.toNat
  if n = 0x07 ∨ n = 0x08 ∨ n = 0x0C then ['\\', 'x', '0'] ++ hexDigits n
  else if n = 0x1B ∨ n = 0x7F then ['\\', 'x'] ++ hexDigits n
  else if 0x80 ≤ n ∧ n ≤ 0x9F then ['\\', 'u', '\x7b'] ++ hexDigits n ++ ['\x7d']
  else [c]

/-- A text for a terminal. -/
def disarm (cs : List Char) : List Char :=
  cs.flatMap disarmChar

end ScopeLint.Text
