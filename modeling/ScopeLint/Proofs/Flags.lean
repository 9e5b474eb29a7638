import ScopeLint.Proofs.LoopBodies
import ScopeLint.Proofs.Reports
import ScopeLint.Proofs.Walk

/-!
# Two settings of the flags, side by side

The rule is run twice on one outline, with the same severity and two sets of exemptions. `SideBySide` goes
through the declarations in the order in which they are visited and says what each adds to the findings of
the two runs. A declaration adds the same to both, unless it stands directly below a loop on which the flags
differ: then it adds nothing where the loop is exempt, and where it is not it is reported on the spot. So a
flag that is set takes findings away and neither adds nor changes any.
-/

namespace ScopeLint

namespace Exemptions

variable {e e' : Exemptions} {kind : Kind}

/-- Whether a kind of node is a form of loop whose flag is set in the second of two sets of exemptions and
not in the first. -/
inductive Gains (e e' : Exemptions) : Kind → Prop
  | counting (off : e.counting = false) (on : e'.counting = true) : Gains e e' (.loop .counting)
  | overKeys (off : e.overKeys = false) (on : e'.overKeys = true) : Gains e e' (.loop .overKeys)
  | overValues (off : e.overValues = false) (on : e'.overValues = true) :
      Gains e e' (.loop .overValues)

/-- Whether two sets of exemptions differ on a kind of node. -/
def DifferOn (e e' : Exemptions) (kind : Kind) : Prop :=
  e.Gains e' kind ∨ e'.Gains e kind

theorem gains_iff : e.Gains e' kind ↔
    ∃ form, kind = .loop form ∧ e.covers form = false ∧ e'.covers form = true := by
  constructor
  · rintro (⟨off, on⟩ | ⟨off, on⟩ | ⟨off, on⟩)
    · exact ⟨.counting, rfl, off, on⟩
    · exact ⟨.overKeys, rfl, off, on⟩
    · exact ⟨.overValues, rfl, off, on⟩
  · rintro ⟨form, rfl, off, on⟩
    cases form with
    | counting => exact .counting off on
    | overKeys => exact .overKeys off on
    | overValues => exact .overValues off on

theorem exempts_eq_of_alike (alike : ¬ DifferOn e e' kind) : e.exempts kind = e'.exempts kind := by
  cases kind with
  | loop form =>
      have gains : ¬ (e.covers form = false ∧ e'.covers form = true) :=
        fun gained => alike (.inl (gains_iff.mpr ⟨form, rfl, gained⟩))
      have loses : ¬ (e'.covers form = false ∧ e.covers form = true) :=
        fun lost => alike (.inr (gains_iff.mpr ⟨form, rfl, lost⟩))
      have same : e.covers form = e'.covers form := by
        cases covered : e.covers form <;> cases covered' : e'.covers form <;> simp_all
      exact same
  | _ => rfl

/-- Where no flag is taken back, the first set gains nothing from the second. -/
theorem not_gains (counting : e.counting → e'.counting) (overKeys : e.overKeys → e'.overKeys)
    (overValues : e.overValues → e'.overValues) (kind : Kind) : ¬ e'.Gains e kind := by
  rintro (⟨off, on⟩ | ⟨off, on⟩ | ⟨off, on⟩)
  · exact absurd (counting on) (Bool.not_eq_true _ ▸ off)
  · exact absurd (overKeys on) (Bool.not_eq_true _ ▸ off)
  · exact absurd (overValues on) (Bool.not_eq_true _ ▸ off)

end Exemptions

namespace Placement

/-- Where the exemptions treat the parent alike, the verdict is the same. -/
theorem verdict_eq_of_alike {o : Outline} {e e' : Exemptions} {n parent : Nat} (linked : o.Linked)
    (above : o.parent? n = some parent) (alike : ¬ e.DifferOn e' (o.kind parent)) :
    verdict o e n (o.lineage n) = verdict o e' n (o.lineage n) := by
  have same := Exemptions.exempts_eq_of_alike alike
  cases exempt : e.exempts (o.kind parent) with
  | true => rw [verdict_exempt linked above exempt, verdict_exempt linked above (same ▸ exempt)]
  | false => exact verdict_eq_of_counted linked above exempt (same ▸ exempt)

end Placement

theorem Outline.map_visitsWhere_perm {o : Outline} (linked : o.Linked) (kind : Kind) :
    ((o.visitsWhere (· = kind)).map Visit.node).Perm (o.findAll kind) := by
  have tours := visitsWhere_tours linked (· = kind)
  refine (List.perm_ext_iff_of_nodup tours.once (List.nodup_range.filter _)).mpr fun n => ?_
  rw [List.mem_map, List.mem_filter, List.mem_range]
  constructor
  · rintro ⟨visit, met, rfl⟩
    obtain ⟨inside, kind, _⟩ := (tours.met visit).mp met
    exact ⟨inside, kind⟩
  · rintro ⟨inside, kind⟩
    exact ⟨⟨n, o.lineage n⟩, (tours.met _).mpr ⟨inside, kind, rfl⟩, rfl⟩

namespace TopRule

variable {rule : TopRule} {severity : Severity} {file : SourceFile} {o : Outline} {e e' : Exemptions}
variable {n parent loop : Nat} {form : LoopForm} {ns : List Nat} {a b : List Finding}

/-- What is reported of a `var` declaration. -/
def outcome (rule : TopRule) (file : SourceFile) (o : Outline) (n : Nat) : Option Finding :=
  (Placement.verdict o rule.exemptions n (o.lineage n)).bind (rule.finding? file o)

/-- The declarations of an outline, in the order in which they are visited. -/
def declarations (o : Outline) : List Nat :=
  (o.visitsWhere (· = .declaration .var)).map Outline.Visit.node

/-- Whether a declaration is reported on the spot: as it is, with no note on anything else, and as far as
the directives around it demand. -/
structure OnTheSpot (rule : TopRule) (file : SourceFile) (o : Outline) (n : Nat)
    (outcome : Option Finding) : Prop where
  verdict : Placement.verdict o rule.exemptions n (o.lineage n) = some ⟨n, none⟩
  reported : rule.Reported file o n outcome
  notes : ∀ finding ∈ outcome, finding.notes = []

/-- What the declarations add to the findings of two rules that differ in their exemptions. -/
inductive SideBySide (severity : Severity) (file : SourceFile) (o : Outline) (e e' : Exemptions) :
    List Nat → List Finding → List Finding → Prop
  | done : SideBySide severity file o e e' [] [] []
  | both {n parent : Nat} {ns : List Nat} {a b : List Finding} {outcome : Option Finding}
      (above : o.parent? n = some parent) (alike : ¬ e.DifferOn e' (o.kind parent))
      (reported : Reported { exemptions := e, severity } file o n outcome)
      (reported' : Reported { exemptions := e', severity } file o n outcome)
      (later : SideBySide severity file o e e' ns a b) :
      SideBySide severity file o e e' (n :: ns) (outcome.toList ++ a) (outcome.toList ++ b)
  | first {n loop : Nat} {ns : List Nat} {a b : List Finding} {outcome : Option Finding}
      (above : o.parent? n = some loop) (gained : e.Gains e' (o.kind loop))
      (reported : OnTheSpot { exemptions := e, severity } file o n outcome)
      (later : SideBySide severity file o e e' ns a b) :
      SideBySide severity file o e e' (n :: ns) (outcome.toList ++ a) b
  | second {n loop : Nat} {ns : List Nat} {a b : List Finding} {outcome : Option Finding}
      (above : o.parent? n = some loop) (lost : e'.Gains e (o.kind loop))
      (reported : OnTheSpot { exemptions := e', severity } file o n outcome)
      (later : SideBySide severity file o e e' ns a b) :
      SideBySide severity file o e e' (n :: ns) a (outcome.toList ++ b)

/-! ## One declaration -/

theorem outcome_eq_of_alike (severity : Severity) (file : SourceFile) (linked : o.Linked)
    (above : o.parent? n = some parent) (alike : ¬ e.DifferOn e' (o.kind parent)) :
    outcome { exemptions := e, severity } file o n = outcome { exemptions := e', severity } file o n := by
  rw [outcome, outcome, Placement.verdict_eq_of_alike linked above alike]
  rfl

theorem outcome_below_exempt (rule : TopRule) (file : SourceFile) (linked : o.Linked)
    (above : o.parent? n = some loop) (kind : o.kind loop = .loop form)
    (exempt : rule.exemptions.covers form = true) :
    rule.outcome file o n = none := by
  rw [outcome, Placement.verdict_below_loop linked above kind, if_pos exempt]
  rfl

theorem outcome_below_counted (linked : o.Linked) (above : o.parent? n = some loop)
    (kind : o.kind loop = .loop form) (counted : rule.exemptions.covers form = false) :
    rule.OnTheSpot file o n (rule.outcome file o n) := by
  have verdict : Placement.verdict o rule.exemptions n (o.lineage n) = some ⟨n, none⟩ := by
    rw [Placement.verdict_below_loop linked above kind, counted]
    rfl
  refine ⟨verdict, finding?_reported rule file o n, fun finding member => ?_⟩
  rw [outcome, verdict, Option.bind_some] at member
  rcases finding?_eq_some_iff.mp member with ⟨_, rfl⟩ | ⟨_, _, rfl⟩ <;> rfl

/-! ## A list of declarations -/

theorem sideBySide_filterMap (linked : o.Linked) (declare : ∀ n ∈ ns, o.kind n = .declaration .var) :
    SideBySide severity file o e e' ns (ns.filterMap (outcome { exemptions := e, severity } file o))
      (ns.filterMap (outcome { exemptions := e', severity } file o)) := by
  induction ns with
  | nil => exact .done
  | cons n ns ih =>
      obtain ⟨declares, later⟩ := List.forall_mem_cons.mp declare
      obtain ⟨parent, above⟩ := Placement.exists_parent_of_declaration linked declares
      simp only [List.filterMap_eq_flatMap_toList, List.flatMap_cons] at ih ⊢
      by_cases differ : e.DifferOn e' (o.kind parent)
      · rcases differ with gained | lost
        · obtain ⟨form, kind, counted, exempt⟩ := Exemptions.gains_iff.mp gained
          rw [outcome_below_exempt { exemptions := e', severity } file linked above kind exempt]
          exact .first above gained (outcome_below_counted linked above kind counted) (ih later)
        · obtain ⟨form, kind, counted, exempt⟩ := Exemptions.gains_iff.mp lost
          rw [outcome_below_exempt { exemptions := e, severity } file linked above kind exempt]
          exact .second above lost (outcome_below_counted linked above kind counted) (ih later)
      · have same := outcome_eq_of_alike severity file linked above differ
        rw [← same]
        refine .both above differ (finding?_reported _ file o n) ?_ (ih later)
        rw [same]
        exact finding?_reported _ file o n

/-- Where every exemption of the first run is one of the second, the second finds nothing more. -/
theorem SideBySide.sublist (run : SideBySide severity file o e e' ns a b)
    (more : ∀ kind, ¬ e'.Gains e kind) : b.Sublist a := by
  induction run with
  | done => exact List.Sublist.refl _
  | both _ _ _ _ _ ih => exact (List.Sublist.refl _).append ih
  | first _ _ _ _ ih => exact ih.trans (List.sublist_append_right _ _)
  | second _ lost _ _ _ => exact absurd lost (more _)

theorem check_eq_filterMap_outcome (linked : o.Linked) (rule : TopRule) (file : SourceFile) :
    rule.check file o = (declarations o).filterMap (rule.outcome file o) := by
  rw [check, declarations, List.filterMap_map]
  refine List.filterMap_congr fun visit met => ?_
  rw [((Outline.visitsWhere_tours linked _).met visit).mp met |>.2.2]
  rfl

/-- The flags act each on its own form of loop, and on nothing else: of the declarations, all of which are
visited once, only those directly below a loop whose flag differs add to one run alone. A run with more
exemptions has a sublist of the findings. -/
theorem check_sideBySide (source : List Char) (t : Concrete) (sound : t.hasFault = false)
    (severity : Severity) (file : SourceFile) (e e' : Exemptions) :
    ∃ o, Outline.parse source t = .ok o ∧
      (declarations o).Perm (o.findAll (.declaration .var)) ∧
      SideBySide severity file o e e' (declarations o) (check { exemptions := e, severity } file o)
        (check { exemptions := e', severity } file o) ∧
      ((e.counting → e'.counting) → (e.overKeys → e'.overKeys) → (e.overValues → e'.overValues) →
        (check { exemptions := e', severity } file o).Sublist
          (check { exemptions := e, severity } file o)) := by
  obtain ⟨_, entered, _⟩ := Outline.ofConcrete_entered source t
  have linked := entered.linked
  have perm := Outline.map_visitsWhere_perm linked (.declaration .var)
  have run : SideBySide severity file (Outline.ofConcrete source t) e e' (declarations _) _ _ :=
    sideBySide_filterMap linked fun n member =>
      of_decide_eq_true (List.mem_filter.mp (perm.mem_iff.mp member)).2
  rw [← check_eq_filterMap_outcome linked, ← check_eq_filterMap_outcome linked] at run
  refine ⟨_, Outline.parse_eq_ok sound, perm, run, fun counting overKeys overValues => ?_⟩
  exact run.sublist (Exemptions.not_gains counting overKeys overValues)

/-- A loop of each form that declares in its header, the last one with a directive that gives no reason,
and a declaration below them. -/
def loopsText : List Char :=
  ("for (var i = 0; ;) {}\nfor (var k in o) {}\n" ++
    "for (var v of w) {} // hoist-lint: allow(vars-on-top)\n\nvar x;").toList

def loopsTree : Concrete :=
  .node ⟨"program", 0, 103, none, .named⟩
    [.node ⟨"for_statement", 0, 21, none, .named⟩
      [.node ⟨"variable_declaration", 5, 15, some "initializer", .named⟩
        [.node ⟨"variable_declarator", 9, 14, none, .named⟩
          [.node ⟨"identifier", 9, 10, some "name", .named⟩ [],
            .node ⟨"number", 13, 14, some "value", .named⟩ []]],
        .node ⟨"empty_statement", 16, 17, some "condition", .named⟩ [],
        .node ⟨"statement_block", 19, 21, some "body", .named⟩ []],
    .node ⟨"for_in_statement", 22, 41, none, .named⟩
      [.node ⟨"var", 27, 30, some "kind", .token⟩ [],
        .node ⟨"identifier", 31, 32, some "left", .named⟩ [],
        .node ⟨"in", 33, 35, some "operator", .token⟩ [],
        .node ⟨"identifier", 36, 37, some "right", .named⟩ [],
        .node ⟨"statement_block", 39, 41, some "body", .named⟩ []],
    .node ⟨"for_in_statement", 42, 61, none, .named⟩
      [.node ⟨"var", 47, 50, some "kind", .token⟩ [],
        .node ⟨"identifier", 51, 52, some "left", .named⟩ [],
        .node ⟨"of", 53, 55, some "operator", .token⟩ [],
        .node ⟨"identifier", 56, 57, some "right", .named⟩ [],
        .node ⟨"statement_block", 59, 61, some "body", .named⟩ []],
    .node ⟨"comment", 62, 95, none, .named⟩ [],
    .node ⟨"variable_declaration", 97, 103, none, .named⟩
      [.node ⟨"variable_declarator", 101, 102, none, .named⟩
        [.node ⟨"identifier", 101, 102, some "name", .named⟩ []]]]

/-- The lines and the severities of what is found in the loops under some exemptions. -/
def foundInLoops (e : Exemptions) : List (Nat × Severity) :=
  let file : SourceFile := ⟨⟨[]⟩, ⟨[]⟩, loopsText, .javaScript⟩
  (check { exemptions := e } file (.ofConcrete loopsText loopsTree)).map fun finding =>
    (finding.location.line, finding.severity)

/-- Each flag takes away what is found in the header of its own form of loop, and what is found below the
loops stays. -/
theorem check_sideBySide_loops :
    let file : SourceFile := ⟨⟨[]⟩, ⟨[]⟩, loopsText, .javaScript⟩
    let o := Outline.ofConcrete loopsText loopsTree
    let none : Exemptions := ⟨false, false, false⟩
    let counting : Exemptions := ⟨true, false, false⟩
    let overKeys : Exemptions := ⟨false, true, false⟩
    loopsTree.hasFault = false ∧ Outline.parse loopsText loopsTree = .ok o ∧
      foundInLoops none = [(1, .error), (2, .error), (3, .warning), (5, .error)] ∧
      foundInLoops counting = [(2, .error), (3, .warning), (5, .error)] ∧
      foundInLoops overKeys = [(1, .error), (3, .warning), (5, .error)] ∧
      foundInLoops ⟨false, false, true⟩ = [(1, .error), (2, .error), (5, .error)] ∧
      SideBySide .error file o counting overKeys (declarations o) (check { exemptions := counting } file o)
        (check { exemptions := overKeys } file o) ∧
      (check { exemptions := counting } file o).Sublist (check { exemptions := none } file o) := by
  intro file o none counting overKeys
  have sound : loopsTree.hasFault = false := by decide
  obtain ⟨_, parsed, _, run, _⟩ :=
    check_sideBySide loopsText loopsTree sound .error file counting overKeys
  obtain ⟨_, parsed', _, _, fewer⟩ := check_sideBySide loopsText loopsTree sound .error file none counting
  obtain rfl : o = _ := Except.ok.inj parsed
  obtain rfl : o = _ := Except.ok.inj parsed'
  refine ⟨sound, parsed, ?_, ?_, ?_, ?_, run, fewer (by decide) (by decide) (by decide)⟩ <;>
    decide +kernel

end TopRule

end ScopeLint
