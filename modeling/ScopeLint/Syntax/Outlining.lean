import ScopeLint.Syntax.Concrete
import ScopeLint.Syntax.Outline

/-!
# Outlining a concrete tree

Named nodes of the concrete tree enter the outline in pre-order, with these exceptions.

* Comments are left out.
* A parenthesised expression, and a `declare` statement around a variable declaration, stand aside:
  their children take their place.
* A `for`-`in` or `for`-`of` header carries its keyword as a bare token. A declaration is entered for
  it directly after the loop, and the binding on the left goes below that declaration.

A tree with a fault has no outline; what is reported then is the position of its first fault.
-/

namespace ScopeLint

/-- Text that the grammar does not accept, first met at a position. -/
structure SyntaxFault where
  position : Text.Position
  deriving DecidableEq, Repr

def SyntaxFault.message (fault : SyntaxFault) : String :=
  s!"syntax error at {fault.position.line}:{fault.position.column}"

namespace Concrete

def isComment (kind : String) : Bool :=
  ["comment", "html_comment", "hash_bang_line"].contains kind

/-- The kinds that the grammar's name alone decides. -/
def plainKinds : List (String × Kind) :=
  [("program", .program), ("statement_block", .block), ("variable_declaration", .declaration .var),
    ("export_statement", .exported), ("import_specifier", .imported .specifier),
    ("namespace_import", .imported .namespaceSpecifier),
    ("expression_statement", .expressionStatement), ("string", .stringLiteral),
    ("function_declaration", .function .declaration),
    ("function_expression", .function .expression), ("function", .function .expression),
    ("arrow_function", .function .arrow), ("method_definition", .function .method),
    ("generator_function_declaration", .function .generator),
    ("generator_function", .function .generator), ("for_statement", .loop .counting)]

/-- The kind of a node that stands directly within a node of kind `within`. -/
def outlineKind (source : List Char) (within : String) (t : Concrete) : Kind :=
  match t.kind with
  | "lexical_declaration" =>
      match t.child? "kind" with
      | some keyword => .declaration (Keyword.ofChars (keyword.textIn source))
      | none => .declaration .let
  | "import_statement" =>
      if t.namedChildren.any (·.kind = "import_require_clause") then .other
      else .imported .declaration
  | "identifier" =>
      if within = "import_clause" then .imported .defaultSpecifier else .other
  | "for_in_statement" =>
      match t.child? "operator" with
      | some operator =>
          if operator.textIn source = ['o', 'f'] then .loop .overValues else .loop .overKeys
      | none => .loop .overKeys
  | name => (plainKinds.lookup name).getD .other

/-- Whether the node is a `declare` statement around a variable declaration. -/
def wrapsDeclaration (t : Concrete) : Bool :=
  t.kind = "ambient_declaration" &&
    match t.namedChildren.head? with
    | some inner => inner.kind = "variable_declaration" || inner.kind = "lexical_declaration"
    | none => false

/-- The keyword and the binding of a loop header that declares its variable. -/
def header? (t : Concrete) : Option (Concrete × Concrete) :=
  match t.child? "kind", t.child? "left" with
  | some keyword, some left => some (keyword, left)
  | _, _ => none

def spanIn (source : List Char) (t : Concrete) : Span :=
  Span.ofRange source t.label.start t.label.stop

end Concrete

namespace Outline

/-- The place of a node that is about to be entered: the node it goes below, and whether it is the
declaration that this node wraps. -/
structure Slot where
  parent : Nat
  isPayload : Bool := false
  deriving DecidableEq, Repr

/-- A child that is treated differently from its siblings: the first one to fill a field, or the
first named one. -/
inductive Pick where
  | field (name : String)
  | firstNamed
  deriving DecidableEq, Repr

def Pick.chooses : Pick → Concrete → Bool
  | field name, t => t.fills name
  | firstNamed, t => t.isNamed

/-- How the children of a node are entered: below which slot, and which one has a slot of its own. -/
structure Plan where
  slot : Slot
  special : Option (Pick × Slot) := none
  deriving DecidableEq, Repr

/-- Enter the declaration of a loop header below the loop `id`. -/
def pushHeader (source : List Char) (keyword left : Concrete) (id : Nat) (o : Outline) : Outline :=
  let word := Keyword.ofChars (keyword.textIn source)
  let origin := if word = .var then "variable_declaration" else "lexical_declaration"
  o.push (.declaration word) origin
    (Span.ofRange source keyword.label.start left.label.stop) id

/-- The plan for the children of the node `id`, which has just been entered. -/
def planBelow (source : List Char) (t : Concrete) (kind : Kind) (id : Nat) (o : Outline) :
    Outline × Plan :=
  match kind with
  | .loop .overKeys | .loop .overValues =>
      match t.header? with
      | some (keyword, left) =>
          (pushHeader source keyword left id o, ⟨⟨id, false⟩, some (.field "left", ⟨o.size, false⟩)⟩)
      | none => (o, ⟨⟨id, false⟩, none⟩)
  | .exported => (o, ⟨⟨id, false⟩, some (.field "declaration", ⟨id, true⟩)⟩)
  | _ => (o, ⟨⟨id, false⟩, none⟩)

/-- Enter one node in its slot, and plan its children; `none` when the whole subtree is left out. -/
def enter (source : List Char) (t : Concrete) (within : String) (slot : Slot) (o : Outline) :
    Option (Outline × Plan) :=
  if Concrete.isComment t.kind then none
  else if t.kind = "parenthesized_expression" then some (o, ⟨⟨slot.parent, false⟩, none⟩)
  else if t.wrapsDeclaration then some (o, ⟨⟨slot.parent, false⟩, some (.firstNamed, slot)⟩)
  else
    let id := o.size
    let kind := t.outlineKind source within
    let pushed := o.push kind t.kind (t.spanIn source) slot.parent
    let entered := if slot.isPayload then pushed.setPayload slot.parent id else pushed
    some (planBelow source t kind id entered)

mutual

/-- Enter a node and what is below it. -/
def addNode (source : List Char) : Concrete → (within : String) → Slot → Outline → Outline
  | .node label children, within, slot, o =>
      match enter source (.node label children) within slot o with
      | none => o
      | some (entered, plan) => addChildren source children label.kind plan entered

/-- Enter the named ones among the children of a node of kind `within`. -/
def addChildren (source : List Char) : List Concrete → (within : String) → Plan → Outline → Outline
  | [], _, _, o => o
  | t :: ts, within, plan, o =>
      match plan.special with
      | some (pick, own) =>
          if pick.chooses t then
            let added := if t.isNamed then addNode source t within own o else o
            addChildren source ts within { plan with special := none } added
          else
            let added := if t.isNamed then addNode source t within plan.slot o else o
            addChildren source ts within plan added
      | none =>
          let added := if t.isNamed then addNode source t within plan.slot o else o
          addChildren source ts within plan added

end

/-- The outline of a tree without faults. -/
def ofConcrete (source : List Char) (t : Concrete) : Outline :=
  addChildren source t.children t.kind ⟨⟨root, false⟩, none⟩ (ofRoot t.kind (t.spanIn source))

/-- The outline of a source text, given the tree the grammar builds for it. -/
def parse (source : List Char) (t : Concrete) : Except SyntaxFault Outline :=
  if t.hasFault then
    .error ⟨Text.positionAt source (t.firstFault?.getD t.label).start⟩
  else .ok (ofConcrete source t)

end Outline

end ScopeLint
