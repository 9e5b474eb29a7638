import ScopeLint.Text.Search
import ScopeLint.Text.Suffixes

/-!
# Globs

Patterns over whole paths. `?` is one character, `*` any run of characters, slashes included, and a
class in brackets one of its members. `**` stands alone between slashes and matches nothing, a stretch
that ends in a slash, or all that is left.

What a pattern matches is defined by recursion on its tokens. The answer is worked out token by token
from the last, as a table over the suffixes of the text.
-/

namespace ScopeLint

open Text (suffixes suffixesAfter onlyLast orNext orLater orAfter onlyLast_eq orNext_eq orLater_eq
  orAfter_eq getLast?_suffixes)

namespace Glob

/-- A member of a class in brackets. -/
inductive Member where
  | single (c : Char)
  | range (first last : Char)
  deriving DecidableEq, Repr

namespace Member

def accepts (c : Char) : Member → Bool
  | single d => c = d
  | range first last => first ≤ c && c ≤ last

/-- The members written between brackets: `a-z` is a range where a character stands on both sides. -/
def list : List Char → List Member
  | first :: '-' :: last :: cs => range first last :: list cs
  | c :: cs => single c :: list cs
  | [] => []

end Member

inductive Token where
  | char (c : Char)
  | anyChar
  | run
  | deep
  | oneOf (members : List Member)
  | noneOf (members : List Member)
  deriving DecidableEq, Repr

/-- What is wrong with a pattern. -/
inductive Flaw where
  | tooManyStars
  | partialComponent
  | openClass
  deriving DecidableEq, Repr

def Flaw.message : Flaw → String
  | tooManyStars => "wildcards are either regular `*` or recursive `**`"
  | partialComponent => "recursive wildcards must form a single path component"
  | openClass => "invalid range pattern"

end Glob

/-- A flaw of a pattern and the character it shows at. -/
structure GlobError where
  position : Nat
  flaw : Glob.Flaw
  deriving DecidableEq, Repr

def GlobError.message (e : GlobError) : String :=
  s!"Pattern syntax error near position {e.position}: {e.flaw.message}"

/-- A pattern, with the text it was written as. -/
structure Glob where
  source : List Char
  tokens : List Glob.Token
  deriving DecidableEq, Repr

namespace Glob

/-- What stands before the bracket that closes a class; the first member may itself be a bracket. -/
def classBody? : List Char → Option (List Char)
  | first :: cs =>
      match Text.cutAt? [']'] cs with
      | some (body, _) => some (first :: body)
      | none => none
  | [] => none

/-- The class that begins after an opening bracket, and how many characters it takes. -/
def class? : List Char → Option (Token × Nat)
  | '!' :: cs => (classBody? cs).map fun body => (.noneOf (Member.list body), body.length + 2)
  | cs => (classBody? cs).map fun body => (.oneOf (Member.list body), body.length + 1)

/-- The tokens of a pattern from a position on. The first `skip` characters belong to a token already
read; `fresh` says whether a component begins after them. -/
def tokensFrom : (skip position : Nat) → (fresh : Bool) → List Char → Except GlobError (List Token)
  | _, _, _, [] => .ok []
  | skip + 1, position, fresh, _ :: cs => tokensFrom skip (position + 1) fresh cs
  | 0, position, fresh, '*' :: cs =>
      match cs with
      | '*' :: '*' :: _ => .error ⟨position + 2, .tooManyStars⟩
      | '*' :: after =>
          if fresh then
            match after with
            | [] => return .deep :: (← tokensFrom 1 (position + 1) false cs)
            | '/' :: _ => return .deep :: (← tokensFrom 2 (position + 1) true cs)
            | _ => .error ⟨position + 2, .partialComponent⟩
          else .error ⟨position - 1, .partialComponent⟩
      | _ => return .run :: (← tokensFrom 0 (position + 1) false cs)
  | 0, position, _, '?' :: cs => return .anyChar :: (← tokensFrom 0 (position + 1) false cs)
  | 0, position, _, '[' :: cs =>
      match class? cs with
      | some (token, size) => return token :: (← tokensFrom size (position + 1) false cs)
      | none => .error ⟨position, .openClass⟩
  | 0, position, _, c :: cs => return .char c :: (← tokensFrom 0 (position + 1) (c = '/') cs)

/-- Read a pattern. -/
def parse (source : List Char) : Except GlobError Glob :=
  match tokensFrom 0 0 true source with
  | .ok tokens => .ok { source, tokens }
  | .error e => .error e

/-- The suffixes that follow a slash. -/
def afterSlashes (cs : List Char) : List (List Char) :=
  suffixesAfter (· = '/') cs

/-- Whether a sequence of tokens matches a whole text: each token says which suffixes of the text it
can leave. -/
def matchTokens : List Token → List Char → Bool
  | [], cs => cs.isEmpty
  | .run :: ts, cs => (suffixes cs).any (matchTokens ts)
  | .deep :: ts, cs => matchTokens ts cs || (afterSlashes cs).any (matchTokens ts) || matchTokens ts []
  | .char _ :: _, [] => false
  | .anyChar :: _, [] => false
  | .oneOf _ :: _, [] => false
  | .noneOf _ :: _, [] => false
  | .char d :: ts, c :: cs => c = d && matchTokens ts cs
  | .anyChar :: ts, _ :: cs => matchTokens ts cs
  | .oneOf members :: ts, c :: cs => members.any (Member.accepts c) && matchTokens ts cs
  | .noneOf members :: ts, c :: cs => !members.any (Member.accepts c) && matchTokens ts cs

/-- The table of a token and what follows it, from the table `marks` of what follows it. -/
def Token.before (cs : List Char) (marks : List Bool) : Token → List Bool
  | .char d => orNext (· = d) cs marks
  | .anyChar => orNext (fun _ => true) cs marks
  | .oneOf members => orNext (fun c => members.any (Member.accepts c)) cs marks
  | .noneOf members => orNext (fun c => !members.any (Member.accepts c)) cs marks
  | .run => orLater marks
  | .deep =>
      (marks.zip (orAfter (· = '/') cs marks)).map fun m =>
        m.1 || m.2 || marks.getLast?.getD false

/-- Whether a sequence of tokens matches each suffix of a text. -/
def table : List Token → List Char → List Bool
  | [], cs => onlyLast cs
  | t :: ts, cs => t.before cs (table ts cs)

theorem table_eq (ts : List Token) (cs : List Char) :
    table ts cs = (suffixes cs).map (matchTokens ts) := by
  induction ts with
  | nil => exact onlyLast_eq cs
  | cons t ts ih =>
      rw [table, ih]
      cases t with
      | run => exact orLater_eq _ cs
      | deep =>
          simp only [Token.before, orAfter_eq, List.getLast?_map, getLast?_suffixes]
          rw [List.zip_map', List.map_map]
          rfl
      | _ =>
          rw [Token.before, orNext_eq]
          refine List.map_congr_left fun s _ => ?_
          cases s <;> simp [matchTokens]

/-- Whether a pattern matches a whole text. -/
def accepts (g : Glob) (text : List Char) : Bool :=
  (table g.tokens text).headD false

theorem accepts_eq_matchTokens (g : Glob) (text : List Char) :
    g.accepts text = matchTokens g.tokens text := by
  simp [accepts, table_eq]

end Glob

end ScopeLint
