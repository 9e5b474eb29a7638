import ScopeLint.Text.Blank
import ScopeLint.Text.Lines
import ScopeLint.Text.Search

/-!
# Allow directives

A comment such as `// hoist-lint: allow(vars-on-top) reason="kept next to its use"` permits the rules
it names on its own line and on the line below; the name `all` stands for every rule. Of the comments
on a line, those opened by `//` come before those opened by `/*`, and the first that carries the mark
of this tool decides.
-/

namespace ScopeLint

/-- The rules a comment permits, and the reason it gives. -/
structure Directive where
  rules : List (List Char)
  reason : Option (List Char)
  deriving DecidableEq, Repr

/-- Whether a rule may be broken on a line, and for what reason. -/
inductive Permission where
  | denied
  | allowed (reason : Option (List Char))
  deriving DecidableEq, Repr

namespace Permission

def isAllowed : Permission → Bool
  | allowed _ => true
  | denied => false

def reason? : Permission → Option (List Char)
  | allowed reason => reason
  | denied => none

end Permission

namespace Directive

/-- The mark by which a comment addresses this tool. -/
def mark : List Char := "hoist-lint:".toList

/-- The text of a comment: what follows its opening, up to a closing `*/`. -/
def commentBody (opened : List Char) : List Char :=
  match Text.cutAt? ['*', '/'] opened with
  | some (body, _) => body
  | none => opened

/-- The texts of the comments that may begin on a line. -/
def commentBodies (line : List Char) : List (List Char) :=
  (Text.followers ['/', '/'] line ++ Text.followers ['/', '*'] line).map commentBody

/-- The reason in `reason="..."`. -/
def parseReason? (rest : List Char) : Option (List Char) :=
  (Text.stripPrefix? "reason=".toList rest).bind fun value =>
    (Text.stripPrefix? ['"'] (Text.trim value)).bind fun quoted =>
      (Text.cutAt? ['"'] quoted).map (·.1)

/-- The names between the parentheses, without blanks around them. -/
def parseNames (list : List Char) : List (List Char) :=
  ((Text.splitAt ',' list).map Text.trim).filter (!·.isEmpty)

/-- Read the part of a directive that follows the mark. -/
def parseBody? (body : List Char) : Option Directive :=
  (Text.stripPrefix? "allow(".toList (Text.trim body)).bind fun opened =>
    (Text.cutAt? [')'] (Text.trim opened)).bind fun (list, rest) =>
      let rules := parseNames list
      if rules.isEmpty then none
      else some { rules, reason := parseReason? (Text.trim rest) }

/-- The directive on a line. -/
def ofLine? (line : List Char) : Option Directive :=
  ((commentBodies line).findSome? fun body => Text.stripPrefix? mark (Text.trim body)).bind parseBody?

def permits (d : Directive) (rule : List Char) : Bool :=
  d.rules.contains rule || d.rules.contains "all".toList

/-- What a line, if there is one, says about a rule. -/
def permissionOf (rule : List Char) (line : Option (List Char)) : Permission :=
  match line.bind ofLine? with
  | some d => if d.permits rule then .allowed d.reason else .denied
  | none => .denied

/-- The line with the given number, counted from one. -/
def lineAt? (lines : List (List Char)) (number : Nat) : Option (List Char) :=
  match number with
  | 0 => none
  | n + 1 => lines[n]?

/-- Whether a rule may be broken on line `number`: the line above is asked first, then the line. -/
def permission (text : List Char) (number : Nat) (rule : List Char) : Permission :=
  let lines := Text.lines text
  match permissionOf rule (lineAt? lines (number - 1)) with
  | .allowed reason => .allowed reason
  | .denied => permissionOf rule (lineAt? lines number)

end Directive

end ScopeLint
