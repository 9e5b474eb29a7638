/-!
# Kinds of outline nodes

The distinctions that matter for the placement of declarations. Everything else is `other`.
-/

namespace ScopeLint

/-- The keyword of a variable declaration. -/
inductive Keyword where
  | var
  | «let»
  | const
  deriving DecidableEq, Repr

namespace Keyword

/-- A keyword other than `let` and `const` declares like `var`. -/
def ofChars (chars : List Char) : Keyword :=
  if chars = ['l', 'e', 't'] then «let»
  else if chars = ['c', 'o', 'n', 's', 't'] then const
  else var

end Keyword

inductive ImportPart where
  | declaration
  | specifier
  | defaultSpecifier
  | namespaceSpecifier
  deriving DecidableEq, Repr

inductive FunctionForm where
  | declaration
  | expression
  | arrow
  | method
  | generator
  deriving DecidableEq, Repr

/-- The loops whose header may declare a variable. -/
inductive LoopForm where
  | counting
  | overKeys
  | overValues
  deriving DecidableEq, Repr

inductive Kind where
  | program
  | block
  | declaration (keyword : Keyword)
  | exported
  | imported (part : ImportPart)
  | expressionStatement
  | stringLiteral
  | function (form : FunctionForm)
  | loop (form : LoopForm)
  | other
  deriving DecidableEq, Repr

namespace Kind

def isFunction : Kind → Bool
  | function _ => true
  | _ => false

def isImport : Kind → Bool
  | imported _ => true
  | _ => false

def isDeclaration : Kind → Bool
  | declaration _ => true
  | _ => false

/-- Whether the children of such a node are statements in sequence. -/
def holdsStatements : Kind → Bool
  | program | block => true
  | _ => false

end Kind

end ScopeLint
