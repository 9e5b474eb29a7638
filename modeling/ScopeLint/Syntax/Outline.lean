import ScopeLint.Syntax.Kind
import ScopeLint.Text.Lines

/-!
# Outlines

The outline of a program is the table of the nodes that rules look at. A node is named by its index,
in the order in which the table was filled; `push` adds a node below an earlier one and enters it
among the children of that node, so parents precede their children and the two directions agree.

An index outside the table has kind `other`, no links and an empty span.
-/

namespace ScopeLint

/-- A stretch of source text: its byte range and the position of its start. -/
structure Span where
  start : Nat
  stop : Nat
  line : Nat
  column : Nat
  deriving DecidableEq, Repr

namespace Span

/-- The span of a byte range of a text. -/
def ofRange (source : List Char) (start stop : Nat) : Span :=
  let position := Text.positionAt source start
  { start, stop, line := position.line, column := position.column }

def length (s : Span) : Nat :=
  s.stop - s.start

def isEmpty (s : Span) : Bool :=
  s.length = 0

end Span

/-- What the table holds of a node. `origin` is the grammar's name for it, and `payload` is the
declaration an export statement wraps. -/
structure OutlineNode where
  kind : Kind
  origin : String
  span : Span
  parent : Option Nat
  children : Array Nat := #[]
  payload : Option Nat := none
  deriving DecidableEq, Repr

structure Outline where
  nodes : Array OutlineNode
  deriving DecidableEq, Repr

namespace Outline

def size (o : Outline) : Nat :=
  o.nodes.size

def node? (o : Outline) (id : Nat) : Option OutlineNode :=
  o.nodes[id]?

def kind (o : Outline) (id : Nat) : Kind :=
  match o.node? id with
  | some node => node.kind
  | none => .other

def span (o : Outline) (id : Nat) : Span :=
  match o.node? id with
  | some node => node.span
  | none => ⟨0, 0, 0, 0⟩

def parent? (o : Outline) (id : Nat) : Option Nat :=
  (o.node? id).bind (·.parent)

def children (o : Outline) (id : Nat) : List Nat :=
  match o.node? id with
  | some node => node.children.toList
  | none => []

/-- The declaration that an export statement wraps. -/
def payload? (o : Outline) (id : Nat) : Option Nat :=
  (o.node? id).bind (·.payload)

/-- The index of the program node. -/
def root : Nat := 0

/-- The table of a program without contents. -/
def ofRoot (origin : String) (span : Span) : Outline :=
  ⟨#[{ kind := .program, origin, span, parent := none }]⟩

/-- Add a node below `parent`. Its index is the size of the table before. -/
def push (o : Outline) (kind : Kind) (origin : String) (span : Span) (parent : Nat) : Outline :=
  ⟨(o.nodes.push { kind, origin, span, parent := some parent }).modify parent fun node =>
    { node with children := node.children.push o.nodes.size }⟩

/-- Enter `payload` as the declaration that `id` wraps. -/
def setPayload (o : Outline) (id payload : Nat) : Outline :=
  ⟨o.nodes.modify id fun node => { node with payload := some payload }⟩

@[simp] theorem size_ofRoot (origin : String) (span : Span) : (ofRoot origin span).size = 1 := rfl

@[simp] theorem size_push (o : Outline) (kind : Kind) (origin : String) (span : Span)
    (parent : Nat) : (o.push kind origin span parent).size = o.size + 1 := by
  simp [size, push]

@[simp] theorem size_setPayload (o : Outline) (id payload : Nat) :
    (o.setPayload id payload).size = o.size := by
  simp [size, setPayload]

/-- The indices of all nodes, in table order. -/
def ids (o : Outline) : List Nat :=
  List.range o.size

/-- The nodes of one kind, in table order. -/
def findAll (o : Outline) (kind : Kind) : List Nat :=
  o.ids.filter fun id => o.kind id = kind

/-- The statements of a program or block. -/
def statements? (o : Outline) (id : Nat) : Option (List Nat) :=
  if (o.kind id).holdsStatements then some (o.children id) else none

/-- The expression of an expression statement. -/
def expression? (o : Outline) (id : Nat) : Option Nat :=
  if o.kind id = .expressionStatement then (o.children id).head? else none

end Outline

end ScopeLint
