import ScopeLint.Finding
import ScopeLint.Proofs.Ranges
import ScopeLint.Proofs.Verdicts

/-!
# The spans of an outline are nested and in order

An outline inherits the order of the ranges in its tree, although children move up where a node stands
aside, and the header of a loop has a range of its own and takes the binding from the loop. Every node lies
inside its parent, siblings do not overlap, and the nodes start in the order of the table.

Siblings come from nodes of the tree that are apart: a node that is kept is the parent of what is kept next
below it. A header ends with the binding, and all else that the loop keeps comes after it.
-/

namespace ScopeLint

/-- The address in the tree that an origin is about. -/
def Origin.address : Origin → Address
  | node a | header a => a

theorem Concrete.Owner.nearest {t : Concrete} {a : Address} {r : Origin} (owner : t.Owner a r) :
    t.NearestKept a r.address := by
  cases owner <;> assumption

/-- Nodes that belong below one origin are not above each other. -/
theorem Concrete.Owner.not_above {t : Concrete} {a b : Address} {r : Origin} (owner : t.Owner a r)
    (owner' : t.Owner b r) (kept : t.Kept a) (apart : a ≠ b) : ¬ a <+: b := by
  intro above
  have between := owner'.nearest.nearest a kept above apart
  exact owner.nearest.proper (owner.nearest.above.eq_of_length_le between.length_le)

/-- Whether the range of a span lies inside that of another one. -/
structure Span.Inside (inner outer : Span) : Prop where
  start : outer.start ≤ inner.start
  range : inner.start ≤ inner.stop
  stop : inner.stop ≤ outer.stop

namespace Outline

/-! ## Ranges in an outline -/

/-- An outline with the origins of its nodes, made from a tree in order. -/
structure Arranged (source : List Char) (t : Concrete) (o : Outline) (origins : List Origin) : Prop where
  faithful : Faithful source t o origins
  linked : o.Linked
  ranged : t.Ranged
  headers : t.everywhere Concrete.headerInOrder

variable {source : List Char} {t n keyword left : Concrete} {o : Outline} {origins : List Origin}
variable {id loop parent first second : Nat} {a b : Address} {r : Origin}

theorem Mirrors.exists_range (h : Mirrors source t o origins id a) : ∃ n, t.at? a = some n ∧
    (o.span id).start = n.label.start ∧ (o.span id).stop = n.label.stop := by
  obtain ⟨n, found, _, span⟩ := h.data
  exact ⟨n, found, span.begins, span.ends⟩

namespace Arranged

theorem exists_origin (h : Arranged source t o origins) (inside : id < o.size) :
    ∃ r, origins[id]? = some r :=
  ⟨_, List.getElem?_eq_getElem (h.faithful.size ▸ inside)⟩

theorem before (h : Arranged source t o origins) (less : first < second)
    (isFirst : origins[first]? = some (.node a)) (isSecond : origins[second]? = some (.node b)) :
    a.Before b := by
  obtain ⟨bound, atFirst⟩ := List.getElem?_eq_some_iff.mp isFirst
  obtain ⟨bound', atSecond⟩ := List.getElem?_eq_some_iff.mp isSecond
  have ordered := List.pairwise_filterMap.mp h.faithful.ordered
  exact List.pairwise_iff_getElem.mp ordered first second bound bound' less a (by rw [atFirst]; rfl) b
    (by rw [atSecond]; rfl)

/-- A node that has a parent belongs below the origin of the parent. -/
theorem exists_owner (h : Arranged source t o origins) (isNode : origins[id]? = some (.node a))
    (link : o.parent? id = some parent) : ∃ r, origins[parent]? = some r ∧ t.Owner a r := by
  have mirrors := h.faithful.mirrors id a isNode
  have below : a ≠ [] := by
    intro top
    rw [mirrors.root top] at link
    cases link
  obtain ⟨other, r, link', found, owner⟩ := mirrors.parent below
  rw [link] at link'
  cases link'
  exact ⟨r, found, owner⟩

/-- Every node lies inside its parent. -/
theorem inside (h : Arranged source t o origins) (link : o.parent? id = some parent) :
    (o.span id).Inside (o.span parent) := by
  obtain ⟨r, origin⟩ := h.exists_origin (lt_size_of_parent? link)
  cases r with
  | node a =>
      obtain ⟨n, found, start, stop⟩ := (h.faithful.mirrors id a origin).exists_range
      obtain ⟨r, above, owner⟩ := h.exists_owner origin link
      cases owner with
      | @node b nearest _ =>
          obtain ⟨m, outer, start', stop'⟩ := (h.faithful.mirrors parent b above).exists_range
          have within := Concrete.liesWithin_iff.mp (h.ranged.within_above nearest.above outer found)
          constructor <;> omega
      | @header b _ inHeader =>
          -- what is below the binding lies inside it, and the binding comes after the keyword
          obtain ⟨loop, keyword, left, declares, _⟩ := h.faithful.declares parent b above
          obtain ⟨start', stop', _⟩ := declares.span
          obtain ⟨m, i, j, outer, places⟩ := declares.headed.exists_places h.headers
          obtain ⟨_, _, _, number, _, outer', binding, below⟩ := inHeader
          cases outer.symm.trans outer'
          cases places.binding.symm.trans binding
          have atLeft := (Concrete.at?_concat outer j).trans places.left
          have within := Concrete.liesWithin_iff.mp (h.ranged.within_above below atLeft found)
          have apart := (h.ranged.at? outer).children_apart places.less places.keyword places.left
          have range := ((h.ranged.at? outer).child places.keyword).range
          constructor <;> omega
  | header a =>
      obtain ⟨loop, keyword, left, declares, _⟩ := h.faithful.declares id a origin
      cases declares.parent.symm.trans link
      obtain ⟨start, stop, _⟩ := declares.span
      obtain ⟨n, i, j, found, places⟩ := declares.headed.exists_places h.headers
      obtain ⟨m, outer, start', stop'⟩ := (h.faithful.mirrors parent a declares.origin_loop).exists_range
      cases found.symm.trans outer
      have within := places.within (h.ranged.at? found)
      constructor <;> omega

/-- A node that comes from the tree starts at or after every node before it. -/
theorem start_le_node (h : Arranged source t o origins) (less : first < second)
    (isNode : origins[second]? = some (.node b)) : (o.span first).start ≤ (o.span second).start := by
  have mirrors := h.faithful.mirrors second b isNode
  obtain ⟨m, found, start, _⟩ := mirrors.exists_range
  have bound : second < o.size := h.faithful.size ▸ (List.getElem?_eq_some_iff.mp isNode).1
  obtain ⟨r, origin⟩ := h.exists_origin (less.trans bound)
  cases r with
  | node a =>
      obtain ⟨n, found', start', _⟩ := (h.faithful.mirrors first a origin).exists_range
      have := h.ranged.start_le_start (h.before less origin isNode) found' found
      omega
  | header a =>
      obtain ⟨loop, keyword, left, declares, _⟩ := h.faithful.declares first a origin
      obtain ⟨start', _, _⟩ := declares.span
      obtain ⟨n, i, j, found', places⟩ := declares.headed.exists_places h.headers
      have earlier : loop < second := by
        have := declares.next
        omega
      have := places.start_le h.ranged found' (h.before earlier declares.origin_loop isNode)
        mirrors.kept found
      omega

/-- The nodes start in the order of the table. -/
theorem start_le (h : Arranged source t o origins) (le : first ≤ second) (bound : second < o.size) :
    (o.span first).start ≤ (o.span second).start := by
  rcases Nat.eq_or_lt_of_le le with rfl | less
  · exact Nat.le_refl _
  obtain ⟨r, origin⟩ := h.exists_origin bound
  cases r with
  | node b => exact h.start_le_node less origin
  | header b =>
      -- a header starts inside its loop, which comes directly before it
      obtain ⟨loop, keyword, left, declares, _⟩ := h.faithful.declares second b origin
      have next := declares.next
      have inLoop := (h.inside declares.parent).start
      rcases Nat.eq_or_lt_of_le (show first ≤ loop by omega) with rfl | earlier
      · exact inLoop
      · exact (h.start_le_node earlier declares.origin_loop).trans inLoop

/-- What belongs below a loop, but not below its header, starts after the end of the header. -/
theorem stop_header_le (h : Arranged source t o origins)
    (declares : Declares source t o origins id loop a keyword left) (owner : t.Owner b (.node a))
    (isNode : origins[second]? = some (.node b)) : (o.span id).stop ≤ (o.span second).start := by
  have mirrors := h.faithful.mirrors second b isNode
  obtain ⟨m, found, start, _⟩ := mirrors.exists_range
  obtain ⟨_, stop, _⟩ := declares.span
  obtain ⟨n, i, j, outer, places⟩ := declares.headed.exists_places h.headers
  obtain ⟨nearest, outside⟩ : t.NearestKept b a ∧ ¬ t.InHeader a b := by
    cases owner with
    | node nearest outside => exact ⟨nearest, outside⟩
  obtain ⟨rest, rfl⟩ := nearest.above
  cases rest with
  | nil => exact absurd (List.append_nil a).symm nearest.proper
  | cons number rest =>
      have other : j ≠ number := by
        rintro rfl
        refine outside ⟨n, keyword, left, j, declares.headed, outer, places.binding, ?_⟩
        exact (List.prefix_append_right_inj a).mpr (List.prefix_append [j] rest)
      have beyond : j < number := Nat.lt_of_le_of_ne (places.binding_le outer mirrors.kept) other
      have atLeft : n.at? [j] = some left := (Concrete.at?_cons places.left []).trans rfl
      rw [Concrete.at?_append, outer, Option.bind_some] at found
      have := (h.ranged.at? outer).branches_apart beyond atLeft found
      omega

/-- Of two children of a node the first ends before the second starts. -/
theorem apart (h : Arranged source t o origins) (isFirst : o.parent? first = some parent)
    (isSecond : o.parent? second = some parent) (less : first < second) :
    (o.span first).stop ≤ (o.span second).start := by
  obtain ⟨r, origin⟩ := h.exists_origin (lt_size_of_parent? isFirst)
  obtain ⟨r', origin'⟩ := h.exists_origin (lt_size_of_parent? isSecond)
  cases r' with
  | header b =>
      -- a header is the first child of its loop
      obtain ⟨loop, _, _, declares, _⟩ := h.faithful.declares second b origin'
      cases declares.parent.symm.trans isSecond
      have := declares.next
      have := h.linked.parent_lt isFirst
      omega
  | node b =>
      obtain ⟨r', above, owner'⟩ := h.exists_owner origin' isSecond
      cases r with
      | node a =>
          obtain ⟨r, above', owner⟩ := h.exists_owner origin isFirst
          cases above.symm.trans above'
          have mirrors := h.faithful.mirrors first a origin
          obtain ⟨n, found, _, stop⟩ := mirrors.exists_range
          obtain ⟨m, found', start, _⟩ := (h.faithful.mirrors second b origin').exists_range
          have before := h.before less origin origin'
          have other : a ≠ b := by
            rintro rfl
            exact Address.Before.irrefl a before
          have := h.ranged.stop_le_start before (owner.not_above owner' mirrors.kept other) found found'
          omega
      | header a =>
          obtain ⟨loop, keyword, left, declares, _⟩ := h.faithful.declares first a origin
          cases declares.parent.symm.trans isFirst
          cases declares.origin_loop.symm.trans above
          exact h.stop_header_le declares owner' origin'

theorem stop_le (h : Arranged source t o origins) (inside : id < o.size) :
    (o.span id).start ≤ (o.span id).stop ∧ (o.span id).stop ≤ t.label.stop := by
  refine h.linked.climb (P := fun id => (o.span id).start ≤ (o.span id).stop ∧
    (o.span id).stop ≤ t.label.stop) ?_ ?_ id inside
  · obtain ⟨r, origin⟩ := h.exists_origin h.linked.inhabited
    cases r with
    | node a =>
        obtain ⟨n, found, start, stop⟩ := (h.faithful.mirrors root a origin).exists_range
        have within := Concrete.liesWithin_iff.mp (h.ranged.within found)
        exact ⟨by omega, by omega⟩
    | header a =>
        obtain ⟨loop, _, _, declares, _⟩ := h.faithful.declares root a origin
        exact absurd declares.next (Nat.succ_ne_zero loop).symm
  · intro id parent link _ _ above
    have inParent := h.inside link
    exact ⟨inParent.range, inParent.stop.trans above.2⟩

end Arranged

/-- Outlining a tree in order gives an outline in order. -/
theorem ofConcrete_arranged (source : List Char) {t : Concrete} (ranged : t.Ranged)
    (headers : t.everywhere Concrete.headerInOrder) :
    ∃ origins, Arranged source t (ofConcrete source t) origins := by
  obtain ⟨origins, entered, covers⟩ := ofConcrete_entered source t
  exact ⟨origins, entered.faithful covers, entered.linked, ranged, headers⟩

end Outline

namespace Placement

variable {o : Outline} {exemptions : Exemptions} {m : Misplacement} {n b : Nat} {keyword : Keyword}

/-- A declaration is blocked by an earlier child of the node that it, or the export statement around it,
stands in. -/
theorem exists_scope_of_blocker (linked : o.Linked) (declares : o.kind n = .declaration keyword)
    (found : verdict o exemptions n (o.lineage n) = some m) (blocked : m.blocker = some b) :
    ∃ scope, StandsFor o n m.node ∧ o.parent? b = some scope ∧ o.parent? m.node = some scope ∧
      b < m.node := by
  obtain ⟨parent, above⟩ := exists_parent_of_declaration linked declares
  obtain ⟨e, scope, stands, link⟩ := exists_standsFor linked above
  by_cases inScope : IsScope o scope
  · obtain ⟨first, before, between, after, rfl, _, split⟩ :=
      exists_blocker linked stands link inScope (stands.declarationForm declares) found
    cases blocked
    have ascending := linked.ascending scope
    rw [split, List.append_assoc, List.pairwise_append] at ascending
    have less := List.rel_of_pairwise_cons ascending.2.1 (List.mem_append_right between List.mem_cons_self)
    have member : b ∈ o.children scope := by simp [split]
    exact ⟨scope, stands, (linked.mem_children scope b).mp member, link, less⟩
  · rw [eq_of_outside linked stands link inScope found] at blocked
    cases blocked

end Placement

namespace Outline

/-- The ranges of an outline are nested and in order, if those of the tree are. Every node but the root lies
inside its parent, siblings follow each other, and the nodes start in the order of the table. So the place
of a node is in the text, and what blocks a declaration ends before the declaration, and the export
statement around it, start. -/
theorem parse_ranges (source : List Char) (t : Concrete) (sound : t.hasFault = false)
    (inSource : t.liesWithin 0 (Text.byteLength source))
    (inOrder : t.everywhere Concrete.childrenInOrder)
    (headers : t.everywhere Concrete.headerInOrder) :
    ∃ o, parse source t = .ok o ∧
      (∀ id, id ≠ root → id < o.size →
        ∃ parent, o.parent? id = some parent ∧ (o.span id).Inside (o.span parent)) ∧
      (∀ id, (o.children id).Pairwise fun child next => (o.span child).stop ≤ (o.span next).start) ∧
      (∀ first second, first ≤ second → second < o.size →
        (o.span first).start ≤ (o.span second).start) ∧
      (∀ file id, id < o.size →
        let place := Location.ofSpan file (o.span id)
        place.offset + place.length ≤ Text.byteLength source) ∧
      ∀ exemptions n keyword m blocker, o.kind n = .declaration keyword →
        Placement.verdict o exemptions n (o.lineage n) = some m → m.blocker = some blocker →
        (o.span blocker).stop ≤ (o.span m.node).start ∧ (o.span m.node).start ≤ (o.span n).start := by
  have bounds := Concrete.liesWithin_iff.mp inSource
  obtain ⟨origins, h⟩ := ofConcrete_arranged source ⟨bounds.2.1, inOrder⟩ headers
  refine ⟨_, parse_eq_ok sound, ?_, ?_, fun _ _ => h.start_le, ?_, ?_⟩
  · intro id other inside
    obtain ⟨parent, link, _⟩ := h.linked.parent_smaller id other inside
    exact ⟨parent, link, h.inside link⟩
  · intro id
    refine (h.linked.ascending id).imp_of_mem fun isFirst isSecond less => ?_
    exact h.apart ((h.linked.mem_children _ _).mp isFirst) ((h.linked.mem_children _ _).mp isSecond) less
  · intro file id inside
    have ends := h.stop_le inside
    simp only [Location.ofSpan, Span.length]
    omega
  · intro exemptions n keyword m blocker declares found blocked
    obtain ⟨scope, stands, isFirst, isSecond, less⟩ :=
      Placement.exists_scope_of_blocker h.linked declares found blocked
    refine ⟨h.apart isFirst isSecond less, ?_⟩
    cases stands with
    | wrapper link _ _ => exact (h.inside link).start
    | self _ => exact Nat.le_refl _

/-- In the sample a loop with a header, and with parentheses in it, blocks a declaration that is exported
and declared. -/
theorem parse_ranges_sample :
    let o := ofConcrete sampleText sampleTree
    sampleTree.hasFault = false ∧ sampleTree.liesWithin 0 (Text.byteLength sampleText) ∧
      sampleTree.everywhere Concrete.childrenInOrder ∧ sampleTree.everywhere Concrete.headerInOrder ∧
      Placement.verdict o {} 7 (o.lineage 7) = some ⟨6, some 1⟩ ∧
      (o.span 1).stop ≤ (o.span 6).start ∧ (o.span 6).start ≤ (o.span 7).start ∧
      (∀ id, id ≠ root → id < o.size →
        ∃ parent, o.parent? id = some parent ∧ (o.span id).Inside (o.span parent)) ∧
      (∀ id, (o.children id).Pairwise fun child next => (o.span child).stop ≤ (o.span next).start) ∧
      ∀ first second, first ≤ second → second < o.size →
        (o.span first).start ≤ (o.span second).start := by
  obtain ⟨o, parsed, inside, apart, ordered, _, blocked⟩ := parse_ranges sampleText sampleTree
    (by decide) (by decide +kernel) (by decide +kernel) (by decide +kernel)
  obtain rfl : ofConcrete sampleText sampleTree = o := Except.ok.inj parsed
  have found : Placement.verdict (ofConcrete sampleText sampleTree) {} 7
      ((ofConcrete sampleText sampleTree).lineage 7) = some ⟨6, some 1⟩ := by decide +kernel
  have ends := blocked {} 7 .var _ 1 (by decide +kernel) found rfl
  exact ⟨by decide, by decide +kernel, by decide +kernel, by decide +kernel, found, ends.1, ends.2,
    inside, apart, ordered⟩

end Outline

end ScopeLint
