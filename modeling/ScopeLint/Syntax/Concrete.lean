import ScopeLint.Text.Lines

/-!
# Concrete trees

The tree a grammar builds for a source text: every node has the grammar's name for it, its byte
range, the field it fills in its parent, and a mark that tells named nodes, plain tokens and the two
kinds of fault apart. Only the tokens that fill a field, or are missing, appear in the tree.

A tree is handed over as the list of its nodes in pre-order, each with its depth.
-/

namespace ScopeLint

/-- What a node of a concrete tree is, apart from its name. -/
inductive Mark where
  | named
  | token
  | error
  | missing
  | missingToken
  deriving DecidableEq, Repr

namespace Mark

def isNamed : Mark → Bool
  | named | error | missing => true
  | token | missingToken => false

/-- Whether a node with this mark stands for text that does not fit the grammar. -/
def isFault : Mark → Bool
  | error | missing | missingToken => true
  | named | token => false

end Mark

/-- The data of one node: its kind in the grammar, its byte range, its field and its mark. -/
structure Label where
  kind : String
  start : Nat
  stop : Nat
  field : Option String
  mark : Mark
  deriving DecidableEq, Repr

inductive Concrete where
  | node (label : Label) (children : List Concrete)
  deriving Repr

namespace Concrete

def label : Concrete → Label
  | node label _ => label

def children : Concrete → List Concrete
  | node _ children => children

def kind (t : Concrete) : String :=
  t.label.kind

def isNamed (t : Concrete) : Bool :=
  t.label.mark.isNamed

def namedChildren (t : Concrete) : List Concrete :=
  t.children.filter isNamed

/-- Whether the node fills the given field of its parent. -/
def fills (field : String) (t : Concrete) : Bool :=
  t.label.field = some field

/-- The first child that fills a field, be it named or a token. -/
def child? (t : Concrete) (field : String) : Option Concrete :=
  t.children.find? (fills field)

/-- The source text of a node. -/
def textIn (source : List Char) (t : Concrete) : List Char :=
  Text.slice t.label.start t.label.stop source

mutual

/-- The labels of a tree in pre-order. -/
def labels : Concrete → List Label
  | node label children => label :: labelsOfAll children

def labelsOfAll : List Concrete → List Label
  | [] => []
  | t :: ts => t.labels ++ labelsOfAll ts

end

mutual

/-- Whether the node or one below it is a fault. -/
def hasFault : Concrete → Bool
  | node label children => label.mark.isFault || anyHasFault children

def anyHasFault : List Concrete → Bool
  | [] => false
  | t :: ts => t.hasFault || anyHasFault ts

end

theorem labels_eq (t : Concrete) : t.labels = t.label :: labelsOfAll t.children := by
  cases t
  rfl

theorem labelsOfAll_append (ts us : List Concrete) :
    labelsOfAll (ts ++ us) = labelsOfAll ts ++ labelsOfAll us := by
  induction ts with
  | nil => rfl
  | cons t ts ih => simp [labelsOfAll, ih]

/-- The first fault among pending trees. The next one is a fault itself, or it has one below it and its
children take its place, or else it is not entered. -/
def firstFaultAmong? : (pending : List Concrete) → Option Label
  | [] => none
  | t :: pending =>
      if t.label.mark.isFault then some t.label
      else if t.hasFault then firstFaultAmong? (t.children ++ pending)
      else firstFaultAmong? pending
termination_by pending => (labelsOfAll pending).length
decreasing_by
  all_goals
    simp only [labelsOfAll, labelsOfAll_append, labels_eq, List.length_append, List.length_cons]
    omega

/-- The first fault of a tree. -/
def firstFault? (t : Concrete) : Option Label :=
  firstFaultAmong? [t]

/-- Put a node in front of the trees that follow it: the deeper ones that come first are its
children. -/
def attach (depth : Nat) (label : Label) (later : List (Nat × Concrete)) : List (Nat × Concrete) :=
  let parts := later.span (depth < ·.1)
  (depth, node label (parts.1.map (·.2))) :: parts.2

/-- The tree whose nodes, with their depths, are listed in pre-order. -/
def ofRows? (rows : List (Nat × Label)) : Option Concrete :=
  (rows.foldr (fun row later => attach row.1 row.2 later) []).head?.map (·.2)

end Concrete

end ScopeLint
