import ScopeLint.Json.Number

/-!
# JSON values and how they are written

A value read from a text may stop short: `cut` stands where the text ceases to be JSON, so that what
comes before the fault can still be judged first. Likewise `halfPair` is a string literal with half of
a surrogate pair, which can be skipped but has no value, and `unkeyed` is the value of a member whose
key is no string, with what stands in place of the key. None of them is ever written on purpose.
-/

namespace ScopeLint

inductive Json where
  | null
  | bool (value : Bool)
  | number (value : Json.Number)
  | string (value : List Char)
  | array (items : List Json)
  | object (members : List (List Char × Json))
  | halfPair
  | unkeyed (key value : Json)
  | cut
  deriving Repr, Inhabited

namespace Json

def ofNat (n : Nat) : Json :=
  .number (.natural n)

def ofString (s : String) : Json :=
  .string s.toList

/-- Four hexadecimal digits of a small number. -/
def hexCode (n : Nat) : List Char :=
  let digits := Nat.toDigits 16 n
  List.replicate (4 - digits.length) '0' ++ digits

/-- A character inside a JSON string. Only quotes, backslashes and controls are escaped. -/
def escape (c : Char) : List Char :=
  if c = '"' then ['\\', '"']
  else if c = '\\' then ['\\', '\\']
  else if c = '\n' then ['\\', 'n']
  else if c = '\r' then ['\\', 'r']
  else if c = '\t' then ['\\', 't']
  else if c.toNat = 0x08 then ['\\', 'b']
  else if c.toNat = 0x0C then ['\\', 'f']
  else if c.toNat < 0x20 then '\\' :: 'u' :: hexCode c.toNat
  else [c]

def writeString (cs : List Char) : List Char :=
  '"' :: cs.flatMap escape ++ ['"']

mutual

/-- A value on one line, without blanks. -/
def compact : Json → List Char
  | null => "null".toList
  | bool true => "true".toList
  | bool false => "false".toList
  | number n => n.write
  | string s => writeString s
  | array items => '[' :: compactItems items ++ [']']
  | object members => '\x7b' :: compactMembers members ++ ['\x7d']
  | halfPair => []
  | unkeyed _ _ => []
  | cut => []

def compactItems : List Json → List Char
  | [] => []
  | [item] => item.compact
  | item :: items => item.compact ++ ',' :: compactItems items

def compactMembers : List (List Char × Json) → List Char
  | [] => []
  | [(key, value)] => writeString key ++ ':' :: value.compact
  | (key, value) :: members => writeString key ++ ':' :: value.compact ++ ',' :: compactMembers members

end

/-- A line break and the blanks that indent the next line by `depth` steps of two. -/
def newline (depth : Nat) : List Char :=
  '\n' :: List.replicate (2 * depth) ' '

mutual

/-- A value with one item or member to a line, indented by its depth. Empty containers stay on one
line. -/
def indented (depth : Nat) : Json → List Char
  | array (item :: items) =>
      '[' :: newline (depth + 1) ++ indentedItems (depth + 1) (item :: items) ++ newline depth ++ [']']
  | object (member :: members) =>
      '\x7b' :: newline (depth + 1) ++ indentedMembers (depth + 1) (member :: members) ++
        newline depth ++ ['\x7d']
  | array [] => ['[', ']']
  | object [] => ['\x7b', '\x7d']
  | null => "null".toList
  | bool true => "true".toList
  | bool false => "false".toList
  | number n => n.write
  | string s => writeString s
  | halfPair => []
  | unkeyed _ _ => []
  | cut => []

def indentedItems (depth : Nat) : List Json → List Char
  | [] => []
  | [item] => item.indented depth
  | item :: items => item.indented depth ++ ',' :: newline depth ++ indentedItems depth items

def indentedMembers (depth : Nat) : List (List Char × Json) → List Char
  | [] => []
  | [(key, value)] => writeString key ++ ':' :: ' ' :: value.indented depth
  | (key, value) :: members =>
      writeString key ++ ':' :: ' ' :: value.indented depth ++ ',' :: newline depth ++
        indentedMembers depth members

end

mutual

/-- Whether the text of a value was JSON to its end. -/
def isIntact : Json → Bool
  | cut => false
  | array items => allIntact items
  | object members => membersIntact members
  | unkeyed _ value => value.isIntact
  | _ => true

def allIntact : List Json → Bool
  | [] => true
  | item :: items => item.isIntact && allIntact items

def membersIntact : List (List Char × Json) → Bool
  | [] => true
  | (_, value) :: members => value.isIntact && membersIntact members

end

end Json

end ScopeLint
