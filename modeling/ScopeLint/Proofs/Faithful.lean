import ScopeLint.Proofs.Coverage

/-!
# An outline is faithful to its tree

Outlining loses, doubles and misplaces nothing. The nodes of an outline, apart from the declarations in
loop headers, are the kept nodes of the tree in pre-order, each once and with its name and span; each
stands below the nearest kept node above it, or below the declaration in its header. Such a
declaration follows its loop directly and is the first child of it.

The links that are stored agree with each other, so going up from any node ends at the root.
-/

namespace ScopeLint.Outline

variable {source : List Char} {t : Concrete} {o : Outline} {origins : List Origin}
variable {id : Nat} {a : Address}

/-- Whether an outline shows what its tree has: `origins` tells where each of its nodes comes from. -/
structure Faithful (source : List Char) (t : Concrete) (o : Outline) (origins : List Origin) : Prop where
  size : origins.length = o.size
  ordered : (origins.filterMap Origin.node?).Pairwise Address.Before
  complete : ∀ a, .node a ∈ origins ↔ t.Kept a
  mirrors : ∀ id a, origins[id]? = some (.node a) → Mirrors source t o origins id a
  headed : ∀ a keyword left, t.Headed a keyword left → ∃! id : Nat, origins[id]? = some (Origin.header a)
  declares : ∀ id a, origins[id]? = some (.header a) → ∃ loop keyword left,
    Declares source t o origins id loop a keyword left ∧ (o.children loop).head? = some id

theorem parse_eq_ok (sound : t.hasFault = false) : parse source t = .ok (ofConcrete source t) := by
  simp [parse, sound]

theorem linked_of_parse (parsed : parse source t = .ok o) : o.Linked := by
  rw [parse] at parsed
  split at parsed
  · cases parsed
  · cases parsed
    obtain ⟨_, entered, _⟩ := ofConcrete_entered source t
    exact entered.linked

/-- An address stands at one place only in a list that has its addresses in pre-order. -/
theorem index_unique {i j : Nat} (ordered : (origins.filterMap Origin.node?).Pairwise Address.Before)
    (first : origins[i]? = some (.node a)) (second : origins[j]? = some (.node a)) : i = j := by
  have earlier : ∀ {i j : Nat}, origins[i]? = some (.node a) → origins[j]? = some (.node a) →
      ¬ i < j := by
    intro i j first second less
    obtain ⟨boundI, atI⟩ := List.getElem?_eq_some_iff.mp first
    obtain ⟨boundJ, atJ⟩ := List.getElem?_eq_some_iff.mp second
    have apart := List.pairwise_iff_getElem.mp (List.pairwise_filterMap.mp ordered) i j boundI boundJ less
    rw [atI, atJ] at apart
    exact Address.Before.irrefl a (apart a rfl a rfl)
  have notLess := earlier first second
  have notGreater := earlier second first
  omega

/-- A child that directly follows its parent is the first one. -/
theorem Linked.head?_children (h : o.Linked) (link : o.parent? (id + 1) = some id) :
    (o.children id).head? = some (id + 1) := by
  have member := (h.mem_children id (id + 1)).mpr link
  cases children : o.children id with
  | nil =>
      rw [children] at member
      cases member
  | cons first rest =>
      have ascending := h.ascending id
      rw [children] at member ascending
      have isChild : first ∈ o.children id := by
        rw [children]
        exact List.mem_cons_self
      have greater := h.parent_lt ((h.mem_children id first).mp isChild)
      rcases List.mem_cons.mp member with same | later
      · rw [same]
        rfl
      · have less := List.rel_of_pairwise_cons ascending later
        omega

theorem Entered.faithful (h : Entered source t o origins) (covers : Covers t (fun _ => True) origins) :
    Faithful source t o origins where
  size := h.length
  ordered := covers.ordered
  complete := by
    intro a
    rw [covers.complete, true_and]
  mirrors := fun _ _ found => h.describes found
  headed := by
    intro a keyword left headed
    obtain ⟨before, after, split⟩ := covers.headers a keyword left trivial headed
    have loop : origins[before.length]? = some (.node a) := by
      simp [← split]
    refine ⟨before.length + 1, by simp [← split], ?_⟩
    intro id found
    obtain ⟨other, _, _, declares⟩ : Describes source t o origins id (.header a) := h.describes found
    rw [declares.next, index_unique covers.ordered declares.origin_loop loop]
  declares := by
    intro id a found
    obtain ⟨loop, keyword, left, declares⟩ : Describes source t o origins id (.header a) :=
      h.describes found
    refine ⟨loop, keyword, left, declares, ?_⟩
    rw [declares.next]
    exact h.linked.head?_children (declares.next ▸ declares.parent)

/-- The declaration in the header of a loop is found by the bytes that it covers. -/
theorem Faithful.header_at {keyword left : Concrete} (h : Faithful source t o origins)
    (headed : t.Headed a keyword left)
    (only : ∀ other < o.size, (o.span other).start = keyword.label.start →
      (o.span other).stop = left.label.stop → other = id) :
    origins[id]? = some (.header a) := by
  obtain ⟨other, found, _⟩ := h.headed a keyword left headed
  obtain ⟨_, keyword', left', declares, _⟩ := h.declares other a found
  obtain ⟨n, place, header⟩ := headed.loop
  obtain ⟨n', place', header'⟩ := declares.headed.loop
  cases place.symm.trans place'
  cases header.symm.trans header'
  have inside : other < o.size := by
    rw [← h.size]
    exact (List.getElem?_eq_some_iff.mp found).1
  rwa [only other inside declares.span.begins declares.span.ends] at found

/-- Outlining a tree without faults succeeds, and shows all that the tree has. -/
theorem parse_faithful (source : List Char) (t : Concrete) (sound : t.hasFault = false) :
    ∃ o origins, parse source t = .ok o ∧ Faithful source t o origins := by
  obtain ⟨origins, entered, covers⟩ := ofConcrete_entered source t
  exact ⟨_, origins, parse_eq_ok sound, entered.faithful covers⟩

/-- `for (const k in (o)) for (let v of k) {}`, a loop that is the body of another one. -/
def nestedText : List Char :=
  "for (const k in (o)) for (let v of k) {}".toList

def nestedTree : Concrete :=
  .node ⟨"program", 0, 40, none, .named⟩
    [.node ⟨"for_in_statement", 0, 40, none, .named⟩
      [.node ⟨"const", 5, 10, some "kind", .token⟩ [],
        .node ⟨"identifier", 11, 12, some "left", .named⟩ [],
        .node ⟨"in", 13, 15, some "operator", .token⟩ [],
        .node ⟨"parenthesized_expression", 16, 19, some "right", .named⟩
          [.node ⟨"identifier", 17, 18, none, .named⟩ []],
        .node ⟨"for_in_statement", 21, 40, some "body", .named⟩
          [.node ⟨"let", 26, 29, some "kind", .token⟩ [],
            .node ⟨"identifier", 30, 31, some "left", .named⟩ [],
            .node ⟨"of", 32, 34, some "operator", .token⟩ [],
            .node ⟨"identifier", 35, 36, some "right", .named⟩ [],
            .node ⟨"statement_block", 38, 40, some "body", .named⟩ []]]]

/-- Each header has a declaration by its own keyword, from the keyword to the end of the binding, and the
binding is below it. -/
theorem parse_faithful_nested :
    let o := ofConcrete nestedText nestedTree
    nestedTree.hasFault = false ∧ parse nestedText nestedTree = .ok o ∧
      (o.ids.map fun id => (o.kind id, o.origin id, (o.span id).start, (o.span id).stop, o.parent? id)) =
        [(.program, "program", 0, 40, none), (.loop .overKeys, "for_in_statement", 0, 40, some 0),
          (.declaration .const, "lexical_declaration", 5, 12, some 1),
          (.other, "identifier", 11, 12, some 2), (.other, "identifier", 17, 18, some 1),
          (.loop .overValues, "for_in_statement", 21, 40, some 1),
          (.declaration .let, "lexical_declaration", 26, 31, some 5),
          (.other, "identifier", 30, 31, some 6), (.other, "identifier", 35, 36, some 5),
          (.block, "statement_block", 38, 40, some 5)] ∧
      ∃ origins, Faithful nestedText nestedTree o origins ∧ origins[2]? = some (.header [0]) ∧
        origins[6]? = some (.header [0, 4]) := by
  intro o
  obtain ⟨_, origins, parsed, faithful⟩ := parse_faithful nestedText nestedTree (by decide)
  obtain rfl : o = _ := Except.ok.inj parsed
  have outer : nestedTree.Kept [0] :=
    .inr ⟨(Concrete.reached_root _).concat rfl rfl rfl, _, rfl, rfl⟩
  have inner : nestedTree.Kept [0, 4] := .inr ⟨outer.reached.concat rfl rfl rfl, _, rfl, rfl⟩
  refine ⟨by decide, parsed, by decide +kernel, origins, faithful, ?_, ?_⟩
  · exact faithful.header_at ⟨outer, by simp, _, rfl, rfl⟩ (by decide +kernel)
  · exact faithful.header_at ⟨inner, by simp, _, rfl, rfl⟩ (by decide +kernel)

/-- `for (var v /* c */ of (w)) {}`, and `export declare var x;` on the next line. -/
def sampleText : List Char :=
  "for (var v /* c */ of (w)) {}\nexport declare var x;".toList

def sampleTree : Concrete :=
  .node ⟨"program", 0, 51, none, .named⟩
    [.node ⟨"for_in_statement", 0, 29, none, .named⟩
      [.node ⟨"var", 5, 8, some "kind", .token⟩ [],
        .node ⟨"identifier", 9, 10, some "left", .named⟩ [],
        .node ⟨"comment", 11, 18, none, .named⟩ [],
        .node ⟨"of", 19, 21, some "operator", .token⟩ [],
        .node ⟨"parenthesized_expression", 22, 25, some "right", .named⟩
          [.node ⟨"identifier", 23, 24, none, .named⟩ []],
        .node ⟨"statement_block", 27, 29, some "body", .named⟩ []],
    .node ⟨"export_statement", 30, 51, none, .named⟩
      [.node ⟨"ambient_declaration", 37, 51, some "declaration", .named⟩
        [.node ⟨"variable_declaration", 45, 51, none, .named⟩
          [.node ⟨"variable_declarator", 49, 50, none, .named⟩
            [.node ⟨"identifier", 49, 50, some "name", .named⟩ []]]]]]

/-- The way that the parent links lead, read from its end, comes down from the root. -/
theorem lineage_fromRoot (h : o.Linked) (inside : id < o.size) :
    let way := (o.lineage id).fromRoot ++ [id]
    way.head? = some root ∧ way.IsChain (fun above below => o.parent? below = some above) ∧
      way.Pairwise (· < ·) := by
  have way : (o.lineage id).fromRoot ++ [id] = (o.upward id).reverse :=
    List.reverse_cons.symm
  simp only [way, List.head?_reverse, List.isChain_reverse, List.pairwise_reverse]
  exact ⟨upward_getLast? h inside, upward_isChain h inside, upward_descending h inside⟩

/-- The links in the outline of a tree without faults agree with each other; a payload is what its
export statement wraps in the tree; and the lineage of any node goes up to the root. -/
theorem parse_linked (source : List Char) (t : Concrete) (sound : t.hasFault = false) :
    ∃ o origins, parse source t = .ok o ∧ Faithful source t o origins ∧ o.Linked ∧
      (∀ id payload, o.payload? id = some payload → ∃ b a, origins[id]? = some (.node b) ∧
        origins[payload]? = some (.node a) ∧ t.Wraps b a) ∧
      ∀ id, id < o.size →
        let way := (o.lineage id).fromRoot ++ [id]
        way.head? = some root ∧ way.IsChain (fun above below => o.parent? below = some above) ∧
          way.Pairwise (· < ·) := by
  obtain ⟨origins, entered, covers⟩ := ofConcrete_entered source t
  have linked := entered.linked
  refine ⟨_, origins, parse_eq_ok sound, entered.faithful covers, linked, ?_, ?_⟩
  · intro id payload found
    exact entered.payload found
  · intro id inside
    exact lineage_fromRoot linked inside

/-- The exported declaration, node 7, is the payload of its export statement, and the way to the name in
it leads through both. -/
theorem parse_linked_sample :
    let o := ofConcrete sampleText sampleTree
    sampleTree.hasFault = false ∧ parse sampleText sampleTree = .ok o ∧ o.Linked ∧
      o.ids.map o.parent? = [none, some 0, some 1, some 2, some 1, some 1, some 0, some 6, some 7, some 8] ∧
      o.ids.map o.payload? = [none, none, none, none, none, none, some 7, none, none, none] ∧
      (∃ origins, Faithful sampleText sampleTree o origins ∧ ∃ b a, origins[6]? = some (.node b) ∧
        origins[7]? = some (.node a) ∧ sampleTree.Wraps b a) ∧
      (o.lineage 9).fromRoot ++ [9] = [0, 6, 7, 8, 9] ∧
      [0, 6, 7, 8, 9].IsChain fun above below => o.parent? below = some above := by
  intro o
  obtain ⟨_, origins, parsed, faithful, linked, payloads, ways⟩ :=
    parse_linked sampleText sampleTree (by decide)
  obtain rfl : o = _ := Except.ok.inj parsed
  have way : (o.lineage 9).fromRoot ++ [9] = [0, 6, 7, 8, 9] := by decide +kernel
  refine ⟨by decide, parsed, linked, by decide +kernel, by decide +kernel, ?_, way, ?_⟩
  · exact ⟨origins, faithful, payloads 6 7 (by decide +kernel)⟩
  · rw [← way]
    exact (ways 9 (by decide +kernel)).2.1

end ScopeLint.Outline
