import Mathlib.Data.List.Find
import ScopeLint.Proofs.Address
import ScopeLint.Proofs.Plan

/-!
# Deleting comments from a tree

`withoutComments` deletes the comments of a tree. What is read off a node looks at children by their
field or their kind, and neither is changed by deleting comments that fill no field. One thing is read
off a child by its position: a `declare` statement wraps a declaration that is its first named child. A
comment in front of it hides the declaration, and deleting the comment brings it to the fore.
-/

namespace ScopeLint.Concrete

mutual

/-- The tree without the comments below its root. -/
def withoutComments : Concrete → Concrete
  | node label children => node label (allWithoutComments children)

def allWithoutComments : List Concrete → List Concrete
  | [] => []
  | t :: ts =>
      if isComment t.kind then allWithoutComments ts
      else t.withoutComments :: allWithoutComments ts

end

/-- Whether no comment fills a field. -/
def BareComments (t : Concrete) : Prop :=
  ∀ label ∈ t.labels, isComment label.kind → label.field = none

instance (t : Concrete) : Decidable t.BareComments :=
  inferInstanceAs (Decidable (∀ label ∈ t.labels, isComment label.kind → label.field = none))

/-- Whether a comment is the first named child of a `declare` statement, in front of a declaration of
variables. -/
structure HidesDeclaration (t : Concrete) : Prop where
  ambient : t.kind = "ambient_declaration"
  comment : ∃ c, t.children.find? isNamed = some c ∧ isComment c.kind
  declaration : ∃ d, t.children.find? isVisible = some d ∧
    (d.kind = "variable_declaration" ∨ d.kind = "lexical_declaration")

/-- Whether no node that is reached hides a declaration; the root does not count. -/
def Unhidden (t : Concrete) : Prop :=
  ∀ a n, a ≠ [] → t.Reached a → t.at? a = some n → ¬ n.HidesDeclaration

variable {source : List Char} {within name : String} {t child : Concrete} {ts : List Concrete}
  {a : Address} {number : Nat}

theorem reached_cons_iff (found : t.children[number]? = some child) :
    t.Reached (number :: a) ↔ child.isVisible ∧ child.Reached a := by
  constructor
  · intro reached
    constructor
    · obtain ⟨n, here, named, visible⟩ := reached [number] (by simp) (by simp)
      rw [at?_cons found] at here
      cases here
      exact isVisible_iff.mpr ⟨named, visible⟩
    · intro b below above
      have whole : number :: b <+: number :: a := (List.prefix_cons_inj number).mpr above
      rw [← at?_cons found b]
      exact reached (number :: b) (by simp) whole
  · rintro ⟨visible, reached⟩ b below above
    obtain ⟨rest, rfl, onward⟩ := (List.prefix_cons_iff.mp above).resolve_left below
    rw [at?_cons found]
    by_cases here : rest = []
    · subst here
      obtain ⟨named, plain⟩ := isVisible_iff.mp visible
      exact ⟨child, rfl, named, plain⟩
    · exact reached rest here onward

/-- Nothing is hidden in a tree if nothing is in the visible children, and none of them hides its
own declaration. -/
theorem unhidden_iff :
    t.Unhidden ↔ ∀ child ∈ t.children, child.isVisible → ¬ child.HidesDeclaration ∧ child.Unhidden := by
  constructor
  · intro unhidden child member visible
    obtain ⟨number, found⟩ := List.mem_iff_getElem?.mp member
    constructor
    · refine unhidden [number] child (by simp) ?_ (at?_cons found [])
      exact (reached_cons_iff found).mpr ⟨visible, reached_root child⟩
    · intro a n _ reached here
      refine unhidden (number :: a) n (by simp) ?_ ((at?_cons found a).trans here)
      exact (reached_cons_iff found).mpr ⟨visible, reached⟩
  · intro children a n below reached here
    cases a with
    | nil => exact absurd rfl below
    | cons number rest =>
        rw [at?] at here
        obtain ⟨child, found, here⟩ := Option.bind_eq_some_iff.mp here
        obtain ⟨visible, onward⟩ := (reached_cons_iff found).mp reached
        obtain ⟨shown, unhidden⟩ := children child (List.mem_of_getElem? found) visible
        by_cases last : rest = []
        · subst last
          cases here
          exact shown
        · exact unhidden rest n last onward here

@[simp] theorem label_withoutComments (t : Concrete) : t.withoutComments.label = t.label := by
  cases t
  rw [withoutComments]
  rfl

@[simp] theorem kind_withoutComments (t : Concrete) : t.withoutComments.kind = t.kind := by
  rw [kind, kind, label_withoutComments]

@[simp] theorem isNamed_withoutComments (t : Concrete) : t.withoutComments.isNamed = t.isNamed := by
  rw [isNamed, isNamed, label_withoutComments]

@[simp] theorem fills_withoutComments (t : Concrete) :
    t.withoutComments.fills name = t.fills name := by
  rw [fills, fills, label_withoutComments]

theorem children_withoutComments (t : Concrete) :
    t.withoutComments.children = allWithoutComments t.children := by
  cases t
  rw [withoutComments]
  rfl

theorem allWithoutComments_eq (ts : List Concrete) :
    allWithoutComments ts = (ts.filter fun t => !isComment t.kind).map withoutComments := by
  induction ts with
  | nil => rw [allWithoutComments, List.filter_nil, List.map_nil]
  | cons t ts ih =>
      rw [allWithoutComments]
      by_cases comment : isComment t.kind
      · simp [comment, ih]
      · simp [comment, ih]

theorem mem_labelsOfAll {label : Label} : label ∈ labelsOfAll ts ↔ ∃ t ∈ ts, label ∈ t.labels := by
  induction ts with
  | nil => simp [labelsOfAll]
  | cons t ts ih => simp [labelsOfAll, ih]

theorem BareComments.below (bare : t.BareComments) (member : child ∈ t.children) :
    child.BareComments := by
  obtain ⟨label, children⟩ := t
  intro inner found
  refine bare inner ?_
  rw [labels]
  exact List.mem_cons_of_mem _ (mem_labelsOfAll.mpr ⟨child, member, found⟩)

/-- A node that fills a field is no comment. -/
theorem BareComments.visible (bare : t.BareComments) (filled : t.fills name) :
    isComment t.kind = false := by
  obtain ⟨label, children⟩ := t
  cases comment : isComment label.kind with
  | false => exact comment
  | true =>
      have none : label.field = none := by
        refine bare label ?_ comment
        rw [labels]
        exact List.mem_cons_self
      have some : label.field = some name := of_decide_eq_true filled
      rw [none] at some
      cases some

theorem anyHasFault_eq_false_iff : anyHasFault ts = false ↔ ∀ t ∈ ts, t.hasFault = false := by
  induction ts with
  | nil => simp [anyHasFault]
  | cons t ts ih => simp [anyHasFault, ih]

/-- Deleting comments brings no fault into a tree. -/
theorem hasFault_withoutComments (t : Concrete) (sound : t.hasFault = false) :
    t.withoutComments.hasFault = false := by
  induction t with
  | node label children ih =>
      rw [hasFault, Bool.or_eq_false_iff, anyHasFault_eq_false_iff] at sound
      rw [withoutComments, hasFault, Bool.or_eq_false_iff, anyHasFault_eq_false_iff]
      refine ⟨sound.1, ?_⟩
      intro image member
      rw [allWithoutComments_eq] at member
      obtain ⟨child, kept, rfl⟩ := List.mem_map.mp member
      have inside := (List.mem_filter.mp kept).1
      exact ih child inside (sound.2 child inside)

/-- What is looked for by field, kind or mark is found again after the deletion, unless it was a
comment. -/
theorem find?_allWithoutComments {p : Concrete → Bool} (same : ∀ t, p t.withoutComments = p t)
    (ts : List Concrete) :
    (allWithoutComments ts).find? p =
      (ts.find? fun t => !isComment t.kind && p t).map withoutComments := by
  rw [allWithoutComments_eq, List.find?_map, List.find?_filter]
  congr 2
  funext t
  rw [Function.comp_apply, same, Bool.decide_and, Bool.decide_eq_true, Bool.decide_eq_true]

/-- A child that is looked up by its field is found again. -/
theorem child?_withoutComments (bare : t.BareComments) (name : String) :
    t.withoutComments.child? name = (t.child? name).map withoutComments := by
  rw [child?, child?, children_withoutComments, find?_allWithoutComments fills_withoutComments]
  congr 1
  refine List.find?_congr fun child member => ?_
  cases filled : child.fills name with
  | false => rw [Bool.and_false]
  | true => rw [(bare.below member).visible filled, Bool.not_false, Bool.and_self]

theorem firstNamed_withoutComments (t : Concrete) :
    t.withoutComments.children.find? isNamed = (t.children.find? isVisible).map withoutComments := by
  rw [children_withoutComments, find?_allWithoutComments isNamed_withoutComments]
  congr 2
  funext child
  exact Bool.and_comm _ _

theorem isComment_of_declares
    (declares : t.kind = "variable_declaration" ∨ t.kind = "lexical_declaration") :
    isComment t.kind = false := by
  rcases declares with kind | kind <;> rw [kind] <;> decide

/-- The first named child is the first visible one, unless it is a comment. -/
theorem firstVisible_of_firstNamed (found : ts.find? isNamed = some t)
    (visible : isComment t.kind = false) : ts.find? isVisible = some t := by
  obtain ⟨named, before, after, rfl, tokens⟩ := List.find?_eq_some_iff_append.mp found
  refine List.find?_eq_some_iff_append.mpr ⟨?_, before, after, rfl, ?_⟩
  · exact isVisible_iff.mpr ⟨named, visible⟩
  · intro other member
    have token := tokens other member
    simp only [isVisible, Bool.not_and, token, Bool.true_or]

/-- Deleting comments brings hidden declarations to the fore, and keeps the others there. -/
theorem wrapsDeclaration_withoutComments :
    t.withoutComments.wrapsDeclaration ↔ t.wrapsDeclaration ∨ t.HidesDeclaration := by
  rw [wrapsDeclaration_iff, wrapsDeclaration_iff, firstNamed_withoutComments, kind_withoutComments]
  constructor
  · rintro ⟨ambient, _, image, declares⟩
    obtain ⟨d, found, rfl⟩ := Option.map_eq_some_iff.mp image
    rw [kind_withoutComments] at declares
    -- a visible child is named, so there is a first named one, which is this one or a comment
    obtain ⟨c, first⟩ : ∃ c, t.children.find? isNamed = some c := by
      refine Option.isSome_iff_exists.mp (List.find?_isSome.mpr ⟨d, List.mem_of_find?_eq_some found, ?_⟩)
      exact (isVisible_iff.mp (List.find?_some found)).1
    cases comment : isComment c.kind with
    | true => exact .inr ⟨ambient, ⟨c, first, comment⟩, d, found, declares⟩
    | false =>
        rw [firstVisible_of_firstNamed first comment] at found
        cases found
        exact .inl ⟨ambient, d, first, declares⟩
  · rintro (⟨ambient, d, first, declares⟩ | ⟨ambient, _, d, found, declares⟩)
    · have found := firstVisible_of_firstNamed first (isComment_of_declares declares)
      exact ⟨ambient, d.withoutComments, by rw [found, Option.map_some], by simpa using declares⟩
    · exact ⟨ambient, d.withoutComments, by rw [found, Option.map_some], by simpa using declares⟩

theorem HidesDeclaration.not_standsAside (hides : t.HidesDeclaration) : t.standsAside = false := by
  obtain ⟨ambient, ⟨c, first, comment⟩, _⟩ := hides
  have hidden : ¬ t.wrapsDeclaration := by
    rw [wrapsDeclaration_iff]
    rintro ⟨_, d, found, declares⟩
    rw [first] at found
    cases found
    rw [isComment_of_declares declares] at comment
    cases comment
  simp [standsAside, ambient, hidden]

theorem HidesDeclaration.standsAside_withoutComments (hides : t.HidesDeclaration) :
    t.withoutComments.standsAside := by
  have wraps := wrapsDeclaration_withoutComments.mpr (.inr hides)
  rw [standsAside, wraps, Bool.or_true]

theorem standsAside_withoutComments (shown : ¬ t.HidesDeclaration) :
    t.withoutComments.standsAside = t.standsAside := by
  have same : t.withoutComments.wrapsDeclaration = t.wrapsDeclaration := by
    rw [Bool.eq_iff_iff, wrapsDeclaration_withoutComments]
    exact or_iff_left shown
  rw [standsAside, standsAside, kind_withoutComments, same]

theorem loopHeader?_withoutComments (bare : t.BareComments) :
    t.withoutComments.loopHeader? =
      t.loopHeader?.map fun header => (header.1.withoutComments, header.2.withoutComments) := by
  rw [loopHeader?, loopHeader?, kind_withoutComments, header?, header?, child?_withoutComments bare,
    child?_withoutComments bare]
  split
  · cases t.child? "kind" <;> cases t.child? "left" <;> rfl
  · rfl

theorem textIn_withoutComments (source : List Char) (t : Concrete) :
    t.withoutComments.textIn source = t.textIn source := by
  rw [textIn, textIn, label_withoutComments]

theorem any_namedChildren_withoutComments {kind : String} (visible : isComment kind = false) :
    t.withoutComments.namedChildren.any (·.kind = kind) = t.namedChildren.any (·.kind = kind) := by
  rw [Bool.eq_iff_iff, List.any_eq_true, List.any_eq_true]
  simp only [namedChildren, children_withoutComments, allWithoutComments_eq, List.mem_filter,
    List.mem_map, decide_eq_true_eq]
  constructor
  · rintro ⟨_, ⟨⟨child, ⟨member, _⟩, rfl⟩, named⟩, same⟩
    rw [isNamed_withoutComments] at named
    rw [kind_withoutComments] at same
    exact ⟨child, ⟨member, named⟩, same⟩
  · rintro ⟨child, ⟨member, named⟩, rfl⟩
    refine ⟨child.withoutComments, ⟨⟨child, ⟨member, ?_⟩, rfl⟩, ?_⟩, kind_withoutComments child⟩
    · rw [visible, Bool.not_false]
    · rw [isNamed_withoutComments]
      exact named

/-- Deleting comments leaves the kind of a node as it is. -/
theorem outlineKind_withoutComments (bare : t.BareComments) (source : List Char) (within : String) :
    t.withoutComments.outlineKind source within = t.outlineKind source within := by
  unfold outlineKind
  rw [kind_withoutComments, child?_withoutComments bare, child?_withoutComments bare,
    any_namedChildren_withoutComments (by decide)]
  cases t.child? "kind" <;> cases t.child? "operator" <;>
    simp only [Option.map_none, Option.map_some, textIn_withoutComments]

end ScopeLint.Concrete
