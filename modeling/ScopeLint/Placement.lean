import ScopeLint.Syntax.Visit

/-!
# The placement of declarations

A declaration is on top of its scope when it stands directly in the program or in the body of a
function, and nothing but directives, imports and then declarations comes before it. An `export`
statement around a declaration stands for it. The header of a loop may be exempt.
-/

namespace ScopeLint

/-- The loops whose direct declarations are left alone. -/
structure Exemptions where
  counting : Bool := true
  overKeys : Bool := true
  overValues : Bool := true
  deriving DecidableEq, Repr

namespace Exemptions

def covers (e : Exemptions) : LoopForm → Bool
  | .counting => e.counting
  | .overKeys => e.overKeys
  | .overValues => e.overValues

/-- Whether a declaration directly below a node of this kind is left alone. -/
def exempts (e : Exemptions) : Kind → Bool
  | .loop form => e.covers form
  | _ => false

/-- The exemptions that are stated, each overriding the one in force. -/
structure Changes where
  counting : Option Bool := none
  overKeys : Option Bool := none
  overValues : Option Bool := none
  deriving DecidableEq, Repr

def change (e : Exemptions) (c : Changes) : Exemptions where
  counting := c.counting.getD e.counting
  overKeys := c.overKeys.getD e.overKeys
  overValues := c.overValues.getD e.overValues

end Exemptions

/-- A declaration that is not on top of its scope: the node to report, and the first statement of the
scope that keeps it from being there. -/
structure Misplacement where
  node : Nat
  blocker : Option Nat
  deriving DecidableEq, Repr

namespace Placement

variable (o : Outline)

/-- Whether a statement is an expression statement with a string literal, such as `"use strict";`. -/
def isDirective (statement : Nat) : Bool :=
  match o.expression? statement with
  | some expression => o.kind expression = .stringLiteral
  | none => false

/-- Whether a statement may come before the declarations of a scope. -/
def isPrologue (statement : Nat) : Bool :=
  isDirective o statement || (o.kind statement).isImport

/-- Whether a statement is a variable declaration, bare or exported. -/
def declares (statement : Nat) : Bool :=
  match o.kind statement with
  | .declaration _ => true
  | .exported =>
      match o.payload? statement with
      | some payload => (o.kind payload).isDeclaration
      | none => false
  | _ => false

/-- What looking for a declaration among the statements of its scope finds. -/
inductive Search where
  | onTop
  | blocked (statement : Nat)
  | notFound
  deriving DecidableEq, Repr

/-- Look for a declaration in a run of declarations. -/
def searchRun (target : Nat) : List Nat → Search
  | [] => .notFound
  | statement :: rest =>
      if !declares o statement then .blocked statement
      else if statement = target then .onTop
      else searchRun target rest

/-- Look for a declaration among the statements of a scope, the prologue left out. -/
def search (target : Nat) (statements : List Nat) : Search :=
  searchRun o target (statements.dropWhile (isPrologue o))

/-- The node that stands for a declaration in its scope, with its lineage: the `export` statement
around it, or itself. -/
def effective (node : Nat) (path : Lineage) : Nat × Lineage :=
  match path with
  | parent :: above =>
      if o.kind parent = .exported ∧ o.payload? parent = some node then (parent, above)
      else (node, path)
  | [] => (node, path)

/-- Whether a node is a scope: the program, or a block directly below a function. -/
def isScope (node : Nat) (above : Lineage) : Bool :=
  o.kind node = .program ||
    (o.kind node = .block &&
      match above.parent? with
      | some function => (o.kind function).isFunction
      | none => false)

/-- The verdict on a declaration below the given nodes; `none` when it is exempt or on top. -/
def verdict (exemptions : Exemptions) (node : Nat) (path : Lineage) : Option Misplacement :=
  match path with
  | [] => none
  | parent :: _ =>
      if exemptions.exempts (o.kind parent) then none
      else
        match effective o node path with
        | (_, []) => none
        | (target, scope :: above) =>
            if !isScope o scope above then some ⟨target, none⟩
            else
              match search o target (o.children scope) with
              | .onTop => none
              | .blocked statement => some ⟨target, some statement⟩
              | .notFound => some ⟨target, none⟩

end Placement

end ScopeLint
