import ScopeLint.Text.Search

/-!
# Paths

A path keeps the text it was written with. What it denotes is its list of components: repeated
slashes, a trailing slash and a `.` other than the leading one leave no component, and `..` stays.
Comparison goes through the components, so two spellings of one path compare equal, while joining
and stripping work on the text and keep its spelling.
-/

namespace ScopeLint

/-- One step of a path. -/
inductive Component where
  | root
  | current
  | parent
  | name (chars : List Char)
  deriving DecidableEq, Repr

namespace Component

/-- The order of components: `/`, `.`, `..`, then names by code point, which is also the order of
their bytes. -/
def key : Component → List Nat
  | root => [0]
  | current => [1]
  | parent => [2]
  | name chars => 3 :: chars.map Char.toNat

/-- The component that a piece between slashes stands for. -/
def ofPiece (piece : List Char) : Component :=
  if piece = ['.', '.'] then parent else name piece

end Component

/-- A path as it was written. -/
structure Path where
  chars : List Char
  deriving DecidableEq, Repr, Inhabited

namespace Path

/-- What a path begins with, before its pieces. -/
inductive Head where
  | root
  | current
  | none
  deriving DecidableEq, Repr

namespace Head

def chars : Head → List Char
  | root => ['/']
  | current => ['.']
  | none => []

def components : Head → List Component
  | root => [.root]
  | current => [.current]
  | none => []

end Head

def ofString (text : String) : Path :=
  ⟨text.toList⟩

def text (p : Path) : String :=
  String.ofList p.chars

/-- Separate the head of a path from the text of its pieces. -/
def splitHead : List Char → Head × List Char
  | '/' :: body => (.root, body)
  | ['.'] => (.current, [])
  | '.' :: '/' :: body => (.current, '/' :: body)
  | body => (.none, body)

theorem splitHead_chars (cs : List Char) : (splitHead cs).1.chars ++ (splitHead cs).2 = cs := by
  unfold splitHead
  split <;> rfl

def head (p : Path) : Head :=
  (splitHead p.chars).1

/-- The texts between the slashes that follow the head. -/
def pieces (p : Path) : List (List Char) :=
  Text.splitAt '/' (splitHead p.chars).2

/-- Whether a piece leaves a component. -/
def significant (piece : List Char) : Bool :=
  !(piece = [] || piece = ['.'])

def components (p : Path) : List Component :=
  p.head.components ++ (p.pieces.filter significant).map Component.ofPiece

/-- The list by which paths are ordered. -/
def key (p : Path) : List (List Nat) :=
  p.components.map Component.key

def isAbsolute (p : Path) : Bool :=
  p.head = .root

/-- Whether the text ends in a slash or in `/.`, which only a directory can be reached by. -/
def endsInDirectory (p : Path) : Bool :=
  match p.pieces.reverse with
  | last :: _ :: _ => !significant last
  | [last] => p.head = .root && last = ['.']
  | [] => false

/-- Join two paths: `b` when it is absolute, and otherwise `b` written after `a` and a slash, unless
`a` is empty or already ends in one. -/
def join (a b : Path) : Path :=
  if b.isAbsolute then b
  else
    match a.chars.getLast? with
    | some c => if c = '/' then ⟨a.chars ++ b.chars⟩ else ⟨a.chars ++ '/' :: b.chars⟩
    | none => b

/-- Drop the pieces after the last component. -/
def trimPieces (pieces : List (List Char)) : List (List Char) :=
  (pieces.reverse.dropWhile (!significant ·)).reverse

/-- The pieces from component number `n` on. -/
def dropPieces : (n : Nat) → List (List Char) → List (List Char)
  | _, [] => []
  | n, piece :: pieces =>
      if significant piece then
        match n with
        | 0 => piece :: pieces
        | n + 1 => dropPieces n pieces
      else dropPieces n pieces

/-- The path without its first `n` components, in the spelling of the rest. -/
def dropComponents (p : Path) : Nat → Path
  | 0 => ⟨p.head.chars ++ Text.joinWith '/' (trimPieces p.pieces)⟩
  | n + 1 =>
      ⟨Text.joinWith '/' (trimPieces (dropPieces (n + 1 - p.head.components.length) p.pieces))⟩

/-- Whether the components of `base` begin those of `p`. -/
def startsWith (p base : Path) : Bool :=
  base.components.isPrefixOf p.components

/-- What remains of `p` after the components of `base`. -/
def stripBase? (p base : Path) : Option Path :=
  if p.startsWith base then some (p.dropComponents base.components.length) else none

/-- The path as seen from `base`, or itself when it does not lie below it. -/
def relativeTo (p base : Path) : Path :=
  (p.stripBase? base).getD p

/-- The path without its last component; `none` for `/` and the empty path. -/
def parent? (p : Path) : Option Path :=
  match (trimPieces p.pieces).reverse with
  | _ :: rest => some ⟨p.head.chars ++ Text.joinWith '/' (trimPieces rest.reverse)⟩
  | [] => if p.head = .current then some ⟨[]⟩ else none

/-- The path and the paths above it, at most `n` of them, innermost first. -/
def ancestorsUpTo : (n : Nat) → Path → List Path
  | 0, p => [p]
  | n + 1, p =>
      match p.parent? with
      | some above => p :: ancestorsUpTo n above
      | none => [p]

/-- The path and all paths above it, innermost first. -/
def ancestors (p : Path) : List Path :=
  p.ancestorsUpTo p.components.length

/-- The last component, if it is a name. -/
def fileName? (p : Path) : Option (List Char) :=
  match p.components.getLast? with
  | some (.name chars) => some chars
  | _ => none

/-- What follows the last dot of a file name; a dot that begins the name does not count. -/
def extension? (p : Path) : Option (List Char) :=
  match p.fileName? with
  | none => none
  | some name =>
      match name.reverse.span (· != '.') with
      | (ext, _ :: _ :: _) => some ext.reverse
      | _ => none

end Path

end ScopeLint
