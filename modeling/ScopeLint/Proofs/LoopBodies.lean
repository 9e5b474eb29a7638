import ScopeLint.Proofs.Verdicts

/-!
# What an exempt loop leaves alone

A loop that is exempt leaves alone what stands directly below it, and a header and a body may both do so:
a `var` that is the whole body of a loop has the loop for its parent, just as the one in the header has.
So the exemption of a loop reaches into its body exactly as far as nothing that is kept comes between,
which is as far as a body without braces goes.
-/

namespace ScopeLint

/-- The way down to an address leaves a node above it by one child only. -/
theorem Address.number_unique {a d : Address} {number other : Nat} (below : a ++ [number] <+: d)
    (below' : a ++ [other] <+: d) : number = other := by
  have same : a ++ [number] = a ++ [other] := by
    apply (List.prefix_of_prefix_length_le below below' _).eq_of_length <;> simp
  simpa using same

namespace Concrete

variable {t n : Concrete} {a b d : Address} {r r' : Origin} {source : List Char} {within : String}

/-- Whether `d` lies at or below a child that fills the given field of the node at `a`. -/
def InField (t : Concrete) (field : String) (a d : Address) : Prop :=
  ∃ number child, t.at? (a ++ [number]) = some child ∧ child.fills field ∧ a ++ [number] <+: d

/-- Whether what has the given origin stands directly below the loop at `a`: the declaration of its
header, or a node with nothing in between. -/
inductive DirectlyIn (t : Concrete) (a : Address) : Origin → Prop
  | header : DirectlyIn t a (.header a)
  | part {d : Address} (owner : t.Owner d (.node a)) : DirectlyIn t a (.node d)

theorem NearestKept.unique (h : t.NearestKept d a) (h' : t.NearestKept d b) : a = b := by
  have below : a <+: b := h'.nearest a h.kept h.above h.proper
  have above : b <+: a := h.nearest b h'.kept h'.above h'.proper
  exact below.eq_of_length_le above.length_le

theorem Owner.unique (h : t.Owner d r) (h' : t.Owner d r') : r = r' := by
  cases h with
  | node nearest outside =>
      cases h' with
      | node nearest' _ => rw [nearest.unique nearest']
      | header nearest' inside =>
          rw [← nearest.unique nearest'] at inside
          exact absurd inside outside
  | header nearest inside =>
      cases h' with
      | node nearest' outside =>
          rw [← nearest.unique nearest'] at outside
          exact absurd inside outside
      | header nearest' _ => rw [nearest.unique nearest']

theorem Owner.ne_root (h : t.Owner d (.node a)) : d ≠ [] := by
  rintro rfl
  cases h with
  | node nearest _ => exact nearest.proper (List.prefix_nil.mp nearest.above)

/-- A node fills one field only, so what lies in another field is no part of the binding. -/
theorem InField.not_inHeader {field : String} (inField : t.InField field a d) (other : field ≠ "left") :
    ¬ t.InHeader a d := by
  rintro ⟨n, keyword, left, number, _, found, index, below⟩
  obtain ⟨number', child, place, fills, below'⟩ := inField
  obtain rfl : number = number' := Address.number_unique below below'
  obtain ⟨inside, isLeft, _⟩ := List.findIdx?_eq_some_iff_getElem.mp index
  rw [at?_concat found, List.getElem?_eq_getElem inside] at place
  cases place
  simp only [Concrete.fills, decide_eq_true_eq] at fills isLeft
  rw [fills] at isLeft
  exact other (Option.some.inj isLeft)

/-- In the body and the initializer alike, what stands directly below the loop is what has the loop for
the nearest kept node above. -/
theorem InField.directlyIn_iff {field : String} (inField : t.InField field a d) (other : field ≠ "left") :
    t.DirectlyIn a (.node d) ↔ t.NearestKept d a := by
  constructor
  · rintro (_ | ⟨nearest, _⟩)
    exact nearest
  · intro nearest
    exact .part (.node nearest (inField.not_inHeader other))

/-- What the two names of loops stand for. -/
theorem exists_outlineKind_eq_loop (loop : n.kind = "for_statement" ∨ n.kind = "for_in_statement") :
    ∃ form, n.outlineKind source within = .loop form ∧ (form = .counting ↔ n.kind = "for_statement") := by
  obtain counting | iterating := loop
  · refine ⟨.counting, ?_, by simp [counting]⟩
    rw [outlineKind, counting]
    rfl
  · obtain ⟨form, other, kind⟩ := exists_outlineKind_eq_loop_iff.mpr iterating
    exact ⟨form, kind, by simp [other, iterating]⟩

end Concrete

namespace Outline

variable {source : List Char} {t n : Concrete} {o : Outline} {origins : List Origin}
variable {loop id : Nat} {a : Address} {r : Origin}

/-- The kind of a node that comes from a loop of the tree. -/
theorem Mirrors.exists_kind_eq_loop (h : Mirrors source t o origins loop a) (below : a ≠ [])
    (found : t.at? a = some n) (isLoop : n.kind = "for_statement" ∨ n.kind = "for_in_statement") :
    ∃ form, o.kind loop = .loop form ∧ (form = .counting ↔ n.kind = "for_statement") := by
  obtain ⟨within, kind⟩ := h.exists_kind below found
  rw [kind]
  exact Concrete.exists_outlineKind_eq_loop isLoop

/-- The children of a loop are what stands directly below it in the tree. -/
theorem Faithful.parent?_eq_some_iff (h : Faithful source t o origins)
    (isLoop : origins[loop]? = some (.node a)) (place : origins[id]? = some r) :
    o.parent? id = some loop ↔ t.DirectlyIn a r := by
  cases r with
  | node d =>
      have mirrors := h.mirrors id d place
      constructor
      · intro link
        have below : d ≠ [] := by
          intro atRoot
          rw [mirrors.root atRoot] at link
          cases link
        obtain ⟨parent, r, link', found, owner⟩ := mirrors.parent below
        cases link.symm.trans link'
        cases isLoop.symm.trans found
        exact .part owner
      · rintro (_ | owner)
        obtain ⟨parent, r, link, found, owner'⟩ := mirrors.parent owner.ne_root
        rw [← owner.unique owner'] at found
        rw [link, index_unique h.ordered found isLoop]
  | header b =>
      obtain ⟨above, keyword, left, declares, _⟩ := h.declares id b place
      rw [declares.parent]
      constructor
      · intro same
        cases same
        cases isLoop.symm.trans declares.origin_loop
        exact .header
      · rintro ⟨⟩
        rw [index_unique h.ordered declares.origin_loop isLoop]

end Outline

namespace Placement

variable {o : Outline} {e : Exemptions} {loop id parent : Nat} {form : LoopForm}

/-- Whether the exemption of a loop is for a node: it stands directly below the loop, and this is of an
exempt form. -/
def SkippedBy (o : Outline) (e : Exemptions) (loop id : Nat) : Prop :=
  o.parent? id = some loop ∧ e.exempts (o.kind loop)

/-- Whether the exemptions save a node: it passes, and would not do so without them. -/
def SavedBy (o : Outline) (e : Exemptions) (id : Nat) : Prop :=
  verdict o e id (o.lineage id) = none ∧ verdict o ⟨false, false, false⟩ id (o.lineage id) ≠ none

/-- Directly below a loop a node is left alone or reported as it is, as the form of the loop is exempt
or not. -/
theorem verdict_below_loop (linked : o.Linked) (link : o.parent? id = some loop)
    (kind : o.kind loop = .loop form) :
    verdict o e id (o.lineage id) = if e.covers form then none else some ⟨id, none⟩ := by
  have exempts : e.exempts (o.kind loop) = e.covers form := by
    rw [kind]
    rfl
  cases covered : e.covers form with
  | true =>
      apply verdict_exempt linked link
      rw [exempts, covered]
  | false =>
      have unwrapped : StandsFor o id id := by
        refine .self fun parent link' => ?_
        cases link.symm.trans link'
        rw [kind]
        exact fun exported => nomatch exported.1
      have apart : ¬ IsScope o loop := by
        rintro (program | ⟨block, _, _⟩)
        · cases kind.symm.trans program
        · cases kind.symm.trans block
      exact verdict_apart linked unwrapped link link (exempts.trans covered) apart

/-- Where no exemption is for the parent, the exemptions make no difference. -/
theorem verdict_eq_of_counted {e' : Exemptions} (linked : o.Linked) (above : o.parent? id = some parent)
    (counted : e.exempts (o.kind parent) = false) (counted' : e'.exempts (o.kind parent) = false) :
    verdict o e id (o.lineage id) = verdict o e' id (o.lineage id) := by
  obtain ⟨stand, scope, stands, link⟩ := exists_standsFor linked above
  rw [verdict_eq linked stands link above counted, verdict_eq linked stands link above counted']

/-- The exemptions save exactly what stands directly below an exempt loop. -/
theorem savedBy_iff (linked : o.Linked) : SavedBy o e id ↔ ∃ loop, SkippedBy o e loop id := by
  constructor
  · rintro ⟨passes, reported⟩
    cases above : o.parent? id with
    | none =>
        rw [Outline.lineage, above] at reported
        exact absurd rfl reported
    | some parent =>
        refine ⟨parent, above, ?_⟩
        by_contra counted
        refine reported ?_
        rw [← verdict_eq_of_counted linked above (Bool.not_eq_true _ ▸ counted), passes]
        cases o.kind parent with
        | loop form => cases form <;> rfl
        | _ => rfl
  · rintro ⟨loop, link, exempt⟩
    obtain ⟨form, kind, covered⟩ := Exemptions.exempts_iff.mp exempt
    have without : (⟨false, false, false⟩ : Exemptions).covers form = false := by
      cases form <;> rfl
    constructor
    · exact verdict_exempt linked link exempt
    · simp [verdict_below_loop linked link kind, without]

/-- What the exemption of a loop reaches. The exemptions save exactly what stands directly below an exempt
loop. A loop of the tree skips the declaration of its header, and whatever has the loop for the nearest
kept node above, if its form is exempt; else these are reported without a blocker. This holds in the body
as it does in the initializer: a declaration there is skipped by the loop exactly when nothing that is
kept comes between the two. -/
theorem loop_exemption (source : List Char) (t : Concrete) (sound : t.hasFault = false) (e : Exemptions) :
    ∃ o origins, Outline.parse source t = .ok o ∧ Outline.Faithful source t o origins ∧
      (∀ id, SavedBy o e id ↔ ∃ loop, SkippedBy o e loop id) ∧
      ∀ loop a n, origins[loop]? = some (.node a) → a ≠ [] → t.at? a = some n →
        n.kind = "for_statement" ∨ n.kind = "for_in_statement" →
        ∃ form, o.kind loop = .loop form ∧ (form = .counting ↔ n.kind = "for_statement") ∧
          (∀ id r, origins[id]? = some r →
            (SkippedBy o e loop id ↔ t.DirectlyIn a r ∧ e.covers form) ∧
            (t.DirectlyIn a r →
              verdict o e id (o.lineage id) = if e.covers form then none else some ⟨id, none⟩)) ∧
          ∀ field ∈ ["initializer", "body"], ∀ id d, origins[id]? = some (.node d) →
            t.InField field a d → (SkippedBy o e loop id ↔ t.NearestKept d a ∧ e.covers form) := by
  obtain ⟨origins, entered, covers⟩ := Outline.ofConcrete_entered source t
  have faithful := entered.faithful covers
  have linked := entered.linked
  refine ⟨_, origins, Outline.parse_eq_ok sound, faithful, fun id => savedBy_iff linked, ?_⟩
  intro loop a n isLoop below found name
  obtain ⟨form, kind, counting⟩ := (faithful.mirrors loop a isLoop).exists_kind_eq_loop below found name
  have skipped : ∀ id r, origins[id]? = some r →
      (SkippedBy (Outline.ofConcrete source t) e loop id ↔ t.DirectlyIn a r ∧ e.covers form) := by
    intro id r place
    rw [SkippedBy, kind, faithful.parent?_eq_some_iff isLoop place]
    rfl
  refine ⟨form, kind, counting, fun id r place => ⟨skipped id r place, ?_⟩, ?_⟩
  · intro direct
    exact verdict_below_loop linked ((faithful.parent?_eq_some_iff isLoop place).mpr direct) kind
  · intro field known id d place inField
    have other : field ≠ "left" := by
      rintro rfl
      simp at known
    rw [skipped id _ place, inField.directlyIn_iff other]

/-- `for (var i = 0; ;) var j;`, with one declaration in the header and one that is the body. -/
def bareBodyText : List Char :=
  "for (var i = 0; ;) var j;".toList

def bareBodyTree : Concrete :=
  .node ⟨"program", 0, 25, none, .named⟩
    [.node ⟨"for_statement", 0, 25, none, .named⟩
      [.node ⟨"variable_declaration", 5, 15, some "initializer", .named⟩
        [.node ⟨"variable_declarator", 9, 14, none, .named⟩
          [.node ⟨"identifier", 9, 10, some "name", .named⟩ [],
            .node ⟨"number", 13, 14, some "value", .named⟩ []]],
        .node ⟨"empty_statement", 16, 17, some "condition", .named⟩ [],
        .node ⟨"variable_declaration", 19, 25, some "body", .named⟩
          [.node ⟨"variable_declarator", 23, 24, none, .named⟩
            [.node ⟨"identifier", 23, 24, some "name", .named⟩ []]]]]

/-- The body of the loop is skipped by the exemption of the loop, and so is the declaration in its header. -/
theorem loop_exemption_bareBody :
    bareBodyTree.hasFault = false ∧ ∃ (o : Outline) (origins : List Origin) (loop header body : Nat),
      Outline.parse bareBodyText bareBodyTree = .ok o ∧ origins[loop]? = some (.node [0]) ∧
      origins[header]? = some (.node [0, 0]) ∧ bareBodyTree.InField "initializer" [0] [0, 0] ∧
      origins[body]? = some (.node [0, 2]) ∧ bareBodyTree.InField "body" [0] [0, 2] ∧
      SkippedBy o {} loop header ∧ SkippedBy o {} loop body ∧ SavedBy o {} body := by
  obtain ⟨o, origins, parsed, faithful, saved, loops⟩ :=
    loop_exemption bareBodyText bareBodyTree (by decide) {}
  have kept : bareBodyTree.Kept [0] :=
    .inr ⟨(Concrete.reached_root _).concat rfl rfl rfl, _, rfl, rfl⟩
  have keptHeader : bareBodyTree.Kept [0, 0] :=
    .inr ⟨kept.reached.concat rfl rfl rfl, _, rfl, rfl⟩
  have keptBody : bareBodyTree.Kept [0, 2] :=
    .inr ⟨kept.reached.concat rfl rfl rfl, _, rfl, rfl⟩
  obtain ⟨loop, isLoop⟩ := List.mem_iff_getElem?.mp ((faithful.complete [0]).mpr kept)
  obtain ⟨header, isHeader⟩ := List.mem_iff_getElem?.mp ((faithful.complete [0, 0]).mpr keptHeader)
  obtain ⟨body, isBody⟩ := List.mem_iff_getElem?.mp ((faithful.complete [0, 2]).mpr keptBody)
  have inHeader : bareBodyTree.InField "initializer" [0] [0, 0] := ⟨0, _, rfl, rfl, List.prefix_refl _⟩
  have inBody : bareBodyTree.InField "body" [0] [0, 2] := ⟨2, _, rfl, rfl, List.prefix_refl _⟩
  obtain ⟨form, _, counting, _, parts⟩ := loops loop [0] _ isLoop (by simp) rfl (.inl rfl)
  obtain rfl : form = .counting := counting.mpr rfl
  have skipsHeader : SkippedBy o {} loop header :=
    (parts "initializer" (by simp) header _ isHeader inHeader).mpr
      ⟨Concrete.nearestKept_concat kept 0, rfl⟩
  have skipsBody : SkippedBy o {} loop body :=
    (parts "body" (by simp) body _ isBody inBody).mpr ⟨Concrete.nearestKept_concat kept 2, rfl⟩
  exact ⟨by decide, o, origins, loop, header, body, parsed, isLoop, isHeader, inHeader, isBody, inBody,
    skipsHeader, skipsBody, (saved body).mpr ⟨loop, skipsBody⟩⟩

/-- An exemption does not stop at the header: node 7 is the `var` declaration that the loop has for its
body, and it passes. -/
theorem bareBody_passes :
    let o := Outline.ofConcrete bareBodyText bareBodyTree
    Outline.parse bareBodyText bareBodyTree = .ok o ∧ o.kind 1 = .loop .counting ∧
      o.kind 7 = .declaration .var ∧
      (bareBodyTree.at? [0, 2]).map (fun n => (n.fills "body", n.spanIn bareBodyText)) =
        some (true, o.span 7) ∧
      verdict o {} 7 (o.lineage 7) = none ∧
      verdict o ⟨false, false, false⟩ 7 (o.lineage 7) = some ⟨7, none⟩ := by
  refine ⟨rfl, ?_, ?_, ?_, ?_, ?_⟩ <;> decide +kernel

end Placement

end ScopeLint
