import ScopeLint.Proofs.Address
import ScopeLint.Proofs.Links

/-!
# Where the nodes of an outline come from

Outlining is seen here as a run of entries, each with the origin of the node it enters: a node of the
concrete tree, or the header of a loop. `Entered` collects the states such runs can reach, under the one
condition that every node goes in the slot that suits its address. What a state has to say of its nodes,
and that its links agree, is kept by every entry.

The outline of a tree is such a state. Its origins are all addresses that are kept, in pre-order and each
once, with the header of a loop directly after the loop.
-/

namespace ScopeLint.Outline

/-- Whether a slot is the right one for the node at an address, given the origins of the nodes that are
there. -/
structure Slot.Suits (slot : Slot) (t : Concrete) (a : Address) (origins : List Origin) : Prop where
  owner : ∃ r, t.Owner a r ∧ origins[slot.parent]? = some r
  payload : slot.isPayload → ∃ b, t.Wraps b a ∧ origins[slot.parent]? = some (.node b)

/-- The outlines that entering nodes of a tree one by one can give, with the origins of their nodes. -/
inductive Entered (source : List Char) (t : Concrete) : Outline → List Origin → Prop
  | root : Entered source t (ofRoot t.kind (t.spanIn source)) [.node []]
  | node {o : Outline} {origins : List Origin} {a : Address} {number : Nat} {m n : Concrete}
      {slot : Slot} (before : Entered source t o origins) (reached : t.Reached (a ++ [number]))
      (above : t.at? a = some m) (child : m.children[number]? = some n)
      (stays : n.standsAside = false) (suits : slot.Suits t (a ++ [number]) origins) :
      Entered source t (o.record (nodeEntry source m.kind slot n))
        (origins ++ [.node (a ++ [number])])
  | header {o : Outline} {origins : List Origin} {a : Address} {keyword left : Concrete}
      (before : Entered source t o (origins ++ [.node a])) (headed : t.Headed a keyword left) :
      Entered source t (o.record (headerEntry source keyword left origins.length))
        (origins ++ [.node a] ++ [.header a])

/-- Whether a span is the stretch of a text between two bytes, with the position it starts at. -/
structure Marks (source : List Char) (start stop : Nat) (span : Span) : Prop where
  begins : span.start = start
  ends : span.stop = stop
  position : ⟨span.line, span.column⟩ = Text.positionAt source start

/-- What the keyword of a loop header declares, and the name of such a declaration: `let` and `const`
stand for themselves, and any other text stands for `var`. -/
inductive Spelled : (text : List Char) → Keyword → (origin : String) → Prop
  | isLet : Spelled "let".toList .let "lexical_declaration"
  | isConst : Spelled "const".toList .const "lexical_declaration"
  | isOther {text : List Char} (notLet : text ≠ "let".toList) (notConst : text ≠ "const".toList) :
      Spelled text .var "variable_declaration"

/-- What an outline says of the node `id` that the tree has at `a`. -/
structure Mirrors (source : List Char) (t : Concrete) (o : Outline) (origins : List Origin) (id : Nat)
    (a : Address) : Prop where
  kept : t.Kept a
  data : ∃ n, t.at? a = some n ∧ o.origin id = n.kind ∧
    Marks source n.label.start n.label.stop (o.span id)
  kind : ∀ b number m n, a = b ++ [number] → t.at? b = some m → t.at? a = some n →
    o.kind id = n.outlineKind source m.kind
  root : a = [] → o.parent? id = none
  parent : a ≠ [] → ∃ parent r, o.parent? id = some parent ∧ origins[parent]? = some r ∧ t.Owner a r

/-- What an outline says of the declaration `id` in the header of the loop at `a`: it follows the loop
and stands below it, declares by its keyword, and its text runs from there to the end of the binding. -/
structure Declares (source : List Char) (t : Concrete) (o : Outline) (origins : List Origin)
    (id loop : Nat) (a : Address) (keyword left : Concrete) : Prop where
  next : id = loop + 1
  origin_loop : origins[loop]? = some (.node a)
  headed : t.Headed a keyword left
  parent : o.parent? id = some loop
  declared : ∃ word, o.kind id = .declaration word ∧ Spelled (keyword.textIn source) word (o.origin id)
  span : Marks source keyword.label.start left.label.stop (o.span id)

/-- What an outline says of a node with the given origin. -/
def Describes (source : List Char) (t : Concrete) (o : Outline) (origins : List Origin) (id : Nat) :
    Origin → Prop
  | .node a => Mirrors source t o origins id a
  | .header a => ∃ loop keyword left, Declares source t o origins id loop a keyword left

variable {source : List Char} {t : Concrete} {o : Outline} {origins : List Origin}
variable {e : Entry} {id : Nat} {a : Address} {r : Origin}

theorem ofRange_marks (source : List Char) (start stop : Nat) :
    Marks source start stop (Span.ofRange source start stop) :=
  ⟨rfl, rfl, rfl⟩

theorem ofChars_spelled (text : List Char) : Spelled text (Keyword.ofChars text)
    (if Keyword.ofChars text = .var then "variable_declaration" else "lexical_declaration") := by
  by_cases isLet : text = "let".toList
  · subst isLet
    exact .isLet
  by_cases isConst : text = "const".toList
  · subst isConst
    exact .isConst
  · have isVar : Keyword.ofChars text = .var := (if_neg isLet).trans (if_neg isConst)
    rw [isVar]
    exact .isOther isLet isConst

theorem getElem?_append_of_eq_some {l : List Origin} {i : Nat} (h : l[i]? = some r)
    (new : List Origin) : (l ++ new)[i]? = some r := by
  rw [List.getElem?_append_left (List.getElem?_eq_some_iff.mp h).1]
  exact h

theorem getElem?_concat_cases {l : List Origin} {i : Nat} {last : Origin}
    (h : (l ++ [last])[i]? = some r) : l[i]? = some r ∨ i = l.length ∧ r = last := by
  rcases Nat.lt_trichotomy i l.length with old | rfl | beyond
  · rw [List.getElem?_append_left old] at h
    exact .inl h
  · rw [List.getElem?_concat_length] at h
    exact .inr ⟨rfl, (Option.some.inj h).symm⟩
  · have outside : (l ++ [last]).length ≤ i := by
      rw [List.length_append]
      exact beyond
    rw [List.getElem?_eq_none outside] at h
    cases h

theorem Slot.Suits.append {slot : Slot} (h : slot.Suits t a origins) (new : List Origin) :
    slot.Suits t a (origins ++ new) where
  owner := by
    obtain ⟨r, owner, found⟩ := h.owner
    exact ⟨r, owner, getElem?_append_of_eq_some found new⟩
  payload := by
    intro flag
    obtain ⟨b, wraps, found⟩ := h.payload flag
    exact ⟨b, wraps, getElem?_append_of_eq_some found new⟩

/-- Later entries do not change what is said of a node. -/
theorem Describes.record (h : Describes source t o origins id r) (bound : e.slot.parent < o.size)
    (inside : id < o.size) (new : List Origin) :
    Describes source t (o.record e) (origins ++ new) id r := by
  have apart : id ≠ o.size := Nat.ne_of_lt inside
  cases r with
  | node a =>
      refine ⟨h.kept, ?_, ?_, ?_, ?_⟩
      · rw [origin_record bound, span_record bound, if_neg apart, if_neg apart]
        exact h.data
      · rw [kind_record bound, if_neg apart]
        exact h.kind
      · rw [parent?_record bound, if_neg apart]
        exact h.root
      · intro below
        obtain ⟨parent, r, link, found, owner⟩ := h.parent below
        rw [parent?_record bound, if_neg apart]
        exact ⟨parent, r, link, getElem?_append_of_eq_some found new, owner⟩
  | header a =>
      obtain ⟨loop, keyword, left, h⟩ := h
      refine ⟨loop, keyword, left, h.next, getElem?_append_of_eq_some h.origin_loop new, h.headed,
        ?_, ?_, ?_⟩
      · rw [parent?_record bound, if_neg apart]
        exact h.parent
      · rw [kind_record bound, origin_record bound, if_neg apart, if_neg apart]
        exact h.declared
      · rw [span_record bound, if_neg apart]
        exact h.span

namespace Entered

theorem length (h : Entered source t o origins) : origins.length = o.size := by
  induction h with
  | root => rfl
  | node _ _ _ _ _ _ ih => simp [ih]
  | header _ _ ih => simpa using ih

theorem bound (h : Entered source t o origins) (found : origins[id]? = some r) : id < o.size := by
  rw [← h.length]
  exact (List.getElem?_eq_some_iff.mp found).1

/-- What is said of a node when it is entered. -/
theorem mirrors {b : Address} {number : Nat} {m n : Concrete} {slot : Slot}
    (before : Entered source t o origins) (reached : t.Reached (b ++ [number]))
    (above : t.at? b = some m) (child : m.children[number]? = some n)
    (stays : n.standsAside = false) (suits : slot.Suits t (b ++ [number]) origins) :
    Mirrors source t (o.record (nodeEntry source m.kind slot n))
      (origins ++ [.node (b ++ [number])]) o.size (b ++ [number]) := by
  obtain ⟨r, owner, place⟩ := suits.owner
  have bound : slot.parent < o.size := before.bound place
  have here : t.at? (b ++ [number]) = some n := (Concrete.at?_concat above number).trans child
  refine ⟨.inr ⟨reached, n, here, stays⟩, ⟨n, here, ?_, ?_⟩, ?_, ?_, ?_⟩
  · rw [origin_record bound, if_pos rfl]
    rfl
  · rw [span_record bound, if_pos rfl]
    exact ofRange_marks source _ _
  · intro b' number' m' n' same above' here'
    obtain ⟨rfl, rfl⟩ : b = b' ∧ number = number' := by simpa using same
    cases above.symm.trans above'
    cases here.symm.trans here'
    rw [kind_record bound, if_pos rfl]
    rfl
  · intro same
    exact absurd same (by simp)
  · intro _
    rw [parent?_record bound, if_pos rfl]
    exact ⟨slot.parent, r, rfl, getElem?_append_of_eq_some place _, owner⟩

/-- What is said of the declaration in a loop header when it is entered. -/
theorem declares {keyword left : Concrete} (before : Entered source t o (origins ++ [.node a]))
    (headed : t.Headed a keyword left) :
    Declares source t (o.record (headerEntry source keyword left origins.length))
      (origins ++ [.node a] ++ [.header a]) o.size origins.length a keyword left := by
  have loop : (origins ++ [Origin.node a])[origins.length]? = some (.node a) :=
    List.getElem?_concat_length
  have bound : origins.length < o.size := before.bound loop
  refine ⟨?_, getElem?_append_of_eq_some loop _, headed, ?_, ?_, ?_⟩
  · rw [← before.length]
    simp
  · rw [parent?_record bound, if_pos rfl]
    rfl
  · rw [kind_record bound, origin_record bound, if_pos rfl, if_pos rfl]
    exact ⟨_, rfl, ofChars_spelled _⟩
  · rw [span_record bound, if_pos rfl]
    exact ofRange_marks source _ _

theorem describes (h : Entered source t o origins) (found : origins[id]? = some r) :
    Describes source t o origins id r := by
  induction h generalizing id r with
  | root =>
      obtain ⟨rfl, rfl⟩ : id = 0 ∧ r = .node [] := by
        rcases getElem?_concat_cases (show ([] ++ [Origin.node []])[id]? = some r from found) with h | h
        · cases h
        · exact h
      refine ⟨.inl rfl, ⟨t, rfl, rfl, ofRange_marks source _ _⟩, ?_, fun _ => rfl,
        fun below => absurd rfl below⟩
      intro b number m n same
      exact absurd same.symm (by simp)
  | node before reached above child stays suits ih =>
      obtain ⟨_, _, place⟩ := suits.owner
      rcases getElem?_concat_cases found with old | ⟨rfl, rfl⟩
      · exact (ih old).record (before.bound place) (before.bound old) _
      · rw [before.length]
        exact mirrors before reached above child stays suits
  | header before headed ih =>
      have bound := before.bound List.getElem?_concat_length
      rcases getElem?_concat_cases found with old | ⟨rfl, rfl⟩
      · exact (ih old).record bound (before.bound old) _
      · rw [before.length]
        exact ⟨_, _, _, declares before headed⟩

end Entered

theorem Mirrors.exists_kind {n : Concrete} (h : Mirrors source t o origins id a) (below : a ≠ [])
    (found : t.at? a = some n) : ∃ within, o.kind id = n.outlineKind source within := by
  obtain ⟨above, number, rfl⟩ : ∃ above number, a = above ++ [number] :=
    ⟨a.dropLast, a.getLast below, (List.dropLast_append_getLast below).symm⟩
  obtain ⟨m, parent, _⟩ : ∃ m, t.at? above = some m ∧ m.at? [number] = some n := by
    rwa [Concrete.at?_append, Option.bind_eq_some_iff] at found
  exact ⟨m.kind, h.kind above number m n rfl parent found⟩

/-- The node that wraps a declaration is an export statement in the outline, too. -/
theorem Mirrors.exported {b : Address} (h : Mirrors source t o origins id b) (wraps : t.Wraps b a) :
    o.kind id = .exported := by
  obtain ⟨n, found, below, exported⟩ : ∃ n, t.at? b = some n ∧ b ≠ [] ∧ n.kind = "export_statement" := by
    cases wraps with
    | field found below exported _ => exact ⟨_, found, below, exported⟩
    | declared found below exported _ _ _ _ => exact ⟨_, found, below, exported⟩
  obtain ⟨within, kind⟩ := h.exists_kind below found
  rw [kind]
  exact Concrete.outlineKind_eq_exported_iff.mpr exported

namespace Entered

/-- A slot that suits an address is open. -/
theorem slot_open {slot : Slot} (h : Entered source t o origins) (suits : slot.Suits t a origins) :
    slot.Open o where
  bound := by
    obtain ⟨_, _, place⟩ := suits.owner
    exact h.bound place
  exported := by
    intro flag
    obtain ⟨b, wraps, place⟩ := suits.payload flag
    exact Mirrors.exported (h.describes place) wraps

theorem linked (h : Entered source t o origins) : o.Linked := by
  induction h with
  | root => exact Linked.ofRoot _ _
  | node before _ _ _ _ suits ih => exact ih.record (before.slot_open suits)
  | header before _ ih => exact ih.record ⟨before.bound List.getElem?_concat_length, nofun⟩

/-- The payload of a node is the declaration that it wraps in the tree. -/
theorem payload (h : Entered source t o origins) {payload : Nat} (found : o.payload? id = some payload) :
    ∃ b a, origins[id]? = some (.node b) ∧ origins[payload]? = some (.node a) ∧ t.Wraps b a := by
  induction h generalizing id payload with
  | root =>
      rw [payload?_ofRoot] at found
      cases found
  | @node o origins a number m n slot before reached above child stays suits ih =>
      rw [payload?_record (before.slot_open suits).bound] at found
      split at found
      · rename_i here
        obtain ⟨rfl, flag⟩ := here
        obtain ⟨b, wraps, place⟩ := suits.payload flag
        cases found
        refine ⟨b, _, getElem?_append_of_eq_some place _, ?_, wraps⟩
        rw [← before.length]
        exact List.getElem?_concat_length
      · obtain ⟨b, a, wrapper, wrapped, wraps⟩ := ih found
        exact ⟨b, a, getElem?_append_of_eq_some wrapper _, getElem?_append_of_eq_some wrapped _, wraps⟩
  | header before _ ih =>
      rw [payload?_record (before.bound List.getElem?_concat_length), if_neg (fun h => nomatch h.2)] at found
      obtain ⟨b, a, wrapper, wrapped, wraps⟩ := ih found
      exact ⟨b, a, getElem?_append_of_eq_some wrapper _, getElem?_append_of_eq_some wrapped _, wraps⟩

end Entered

end ScopeLint.Outline
