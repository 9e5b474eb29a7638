import ScopeLint.Proofs.Reports

/-!
# Which directive counts

Two lines can permit that a rule is broken: the line itself and the one above it. The one above is asked
first and its answer stands, even when it gives no reason and the line itself does. So a directive with a
reason is heard exactly when the line above does not permit the rule without one.
-/

namespace ScopeLint

namespace Directive

variable {text rule : List Char} {number : Nat} {reason : Option (List Char)}

/-- Whether the directive on line `number` of a text permits a rule, by its name or by `all`, and gives
the reason. -/
inductive Grants (text : List Char) (number : Nat) (rule : List Char) : Option (List Char) → Prop
  | intro {line : List Char} {d : Directive} (found : lineAt? (Text.lines text) number = some line)
      (directive : ofLine? line = some d) (names : rule ∈ d.rules ∨ "all".toList ∈ d.rules) :
      Grants text number rule d.reason

theorem permits_iff {d : Directive} : d.permits rule ↔ rule ∈ d.rules ∨ "all".toList ∈ d.rules := by
  simp [permits]

/-- One line is heard as what its directive says. -/
theorem permissionOf_eq_allowed_iff :
    permissionOf rule (lineAt? (Text.lines text) number) = .allowed reason ↔
      Grants text number rule reason := by
  constructor
  · intro allowed
    rw [permissionOf] at allowed
    split at allowed
    · rename_i d read
      obtain ⟨line, found, directive⟩ := Option.bind_eq_some_iff.mp read
      split at allowed
      · cases allowed
        exact .intro found directive (permits_iff.mp ‹_›)
      · cases allowed
    · cases allowed
  · rintro ⟨found, directive, names⟩
    rw [permissionOf, found, Option.bind_some, directive]
    exact if_pos (permits_iff.mpr names)

theorem permissionOf_eq_denied_iff :
    permissionOf rule (lineAt? (Text.lines text) number) = .denied ↔
      ∀ reason, ¬ Grants text number rule reason := by
  constructor
  · intro denied reason grants
    rw [permissionOf_eq_allowed_iff.mpr grants] at denied
    cases denied
  · intro silent
    cases answer : permissionOf rule (lineAt? (Text.lines text) number) with
    | denied => rfl
    | allowed reason => exact absurd (permissionOf_eq_allowed_iff.mp answer) (silent reason)

theorem Grants.unique {other : Option (List Char)} (grants : Grants text number rule reason)
    (grants' : Grants text number rule other) : reason = other := by
  have same := (permissionOf_eq_allowed_iff.mpr grants).symm.trans
    (permissionOf_eq_allowed_iff.mpr grants')
  exact Permission.allowed.inj same

/-- The answer of the line above stands. -/
theorem permission_of_above (grants : Grants text (number - 1) rule reason) :
    permission text number rule = .allowed reason := by
  simp only [permission, permissionOf_eq_allowed_iff.mpr grants]

/-- The line itself is heard when the line above is silent. -/
theorem permission_of_silent (silent : ∀ reason, ¬ Grants text (number - 1) rule reason) :
    permission text number rule = permissionOf rule (lineAt? (Text.lines text) number) := by
  simp only [permission, permissionOf_eq_denied_iff.mpr silent]

/-- What two lines together permit, and for what reason. -/
theorem permission_eq_allowed_iff : permission text number rule = .allowed reason ↔
    Grants text (number - 1) rule reason ∨
      (∀ reason, ¬ Grants text (number - 1) rule reason) ∧ Grants text number rule reason := by
  by_cases silent : ∀ reason, ¬ Grants text (number - 1) rule reason
  · rw [permission_of_silent silent, permissionOf_eq_allowed_iff]
    simp [silent]
  · obtain ⟨other, grants⟩ := not_forall_not.mp silent
    rw [permission_of_above grants, Permission.allowed.injEq]
    constructor
    · rintro rfl
      exact .inl grants
    · rintro (grants' | ⟨silent', _⟩)
      · exact grants.unique grants'
      · exact absurd grants (silent' other)

/-- A reason that one of the two lines gives is heard, unless the line above permits without one. -/
theorem exists_reason_iff {given : List Char}
    (explained : Grants text number rule (some given) ∨ Grants text (number - 1) rule (some given)) :
    (∃ reason, permission text number rule = .allowed (some reason)) ↔
      ¬ Grants text (number - 1) rule none := by
  constructor
  · rintro ⟨reason, allowed⟩ bare
    rw [permission_of_above bare] at allowed
    cases allowed
  · intro unshadowed
    by_cases silent : ∀ reason, ¬ Grants text (number - 1) rule reason
    · obtain own | above := explained
      · exact ⟨given, permission_eq_allowed_iff.mpr (.inr ⟨silent, own⟩)⟩
      · exact absurd above (silent _)
    · obtain ⟨other, grants⟩ := not_forall_not.mp silent
      cases other with
      | none => exact absurd grants unshadowed
      | some reason => exact ⟨reason, permission_of_above grants⟩

/-- Where one of the two lines gives a reason, the rule is permitted without one exactly by the line above. -/
theorem permission_eq_allowed_none_iff {given : List Char}
    (explained : Grants text number rule (some given) ∨ Grants text (number - 1) rule (some given)) :
    permission text number rule = .allowed none ↔ Grants text (number - 1) rule none := by
  rw [permission_eq_allowed_iff]
  constructor
  · rintro (above | ⟨silent, own⟩)
    · exact above
    · obtain own' | above := explained
      · cases own.unique own'
      · exact absurd above (silent _)
  · exact .inl

theorem permission_ne_denied {given : List Char}
    (explained : Grants text number rule (some given) ∨ Grants text (number - 1) rule (some given)) :
    permission text number rule ≠ .denied := by
  by_cases bare : Grants text (number - 1) rule none
  · rw [permission_of_above bare]
    exact nofun
  · obtain ⟨reason, allowed⟩ := (exists_reason_iff explained).mpr bare
    rw [allowed]
    exact nofun

/-- A directive with a reason, on a line or above it, is heard exactly when no directive above the line
permits the rule without a reason. A misplaced declaration on the line is not reported then. Otherwise
the missing reason is, if the rule asks for one. -/
theorem permission_explained (text rule : List Char) (number : Nat) (given : List Char)
    (explained : Grants text number rule (some given) ∨ Grants text (number - 1) rule (some given)) :
    ((∃ reason, permission text number rule = .allowed (some reason)) ↔
      ¬ Grants text (number - 1) rule none) ∧
    ∀ (top : TopRule) (file : SourceFile) (o : Outline) (m : Misplacement) (finding : Finding),
      TopRule.name.toList = rule → file.text = text → (o.span m.node).line = number →
      (top.finding? file o m = some finding ↔
        Grants text (number - 1) rule none ∧ top.severity = .error ∧
          finding = TopRule.missingReason file o m.node) := by
  refine ⟨exists_reason_iff explained, ?_⟩
  rintro top file o m finding rfl rfl rfl
  have heard : TopRule.permission file o m ≠ .denied := permission_ne_denied explained
  have bare : TopRule.permission file o m = .allowed none ↔ _ := permission_eq_allowed_none_iff explained
  rw [TopRule.finding?_eq_some_iff, bare, @eq_comm _ finding]
  simp [heard]

/-- A call, a directive with a reason, and a declaration on the line below it. -/
def keptText : List Char :=
  "f();\n// hoist-lint: allow(vars-on-top) reason=\"kept\"\nvar a;".toList

def keptTree : Concrete :=
  .node ⟨"program", 0, 59, none, .named⟩
    [.node ⟨"expression_statement", 0, 4, none, .named⟩
      [.node ⟨"call_expression", 0, 3, none, .named⟩
        [.node ⟨"identifier", 0, 1, some "function", .named⟩ [],
          .node ⟨"arguments", 1, 3, some "arguments", .named⟩ []]],
    .node ⟨"comment", 5, 52, none, .named⟩ [],
    .node ⟨"variable_declaration", 53, 59, none, .named⟩
      [.node ⟨"variable_declarator", 57, 58, none, .named⟩
        [.node ⟨"identifier", 57, 58, some "name", .named⟩ []]]]

/-- The call keeps the declaration from the top. The directive above it gives a reason, so the declaration
is not reported. -/
theorem permission_explained_below :
    let o := Outline.ofConcrete keptText keptTree
    let file : SourceFile := ⟨⟨[]⟩, ⟨[]⟩, keptText, .javaScript⟩
    Grants keptText 2 TopRule.name.toList (some "kept".toList) ∧
      ¬ Grants keptText 2 TopRule.name.toList none ∧
      permission keptText 3 TopRule.name.toList = .allowed (some "kept".toList) ∧
      Outline.parse keptText keptTree = .ok o ∧ (o.span 5).line = 3 ∧
      Placement.verdict o {} 5 (o.lineage 5) = some ⟨5, some 1⟩ ∧
      ({} : TopRule).finding? file o ⟨5, some 1⟩ = none ∧ ({} : TopRule).check file o = [] := by
  intro o file
  have grants : Grants keptText 2 TopRule.name.toList (some "kept".toList) :=
    permissionOf_eq_allowed_iff.mp (by decide +kernel)
  have bare : ¬ Grants keptText 2 TopRule.name.toList none :=
    fun bare => nomatch bare.unique grants
  have line : (o.span 5).line = 3 := by decide +kernel
  obtain ⟨_, found⟩ := permission_explained keptText TopRule.name.toList 3 "kept".toList (.inr grants)
  have unreported : ({} : TopRule).finding? file o ⟨5, some 1⟩ = none := by
    refine Option.eq_none_iff_forall_ne_some.mpr fun finding reported => bare ?_
    exact ((found {} file o ⟨5, some 1⟩ finding rfl rfl line).mp reported).1
  exact ⟨grants, bare, by decide +kernel, rfl, line, by decide +kernel, unreported, by decide +kernel⟩

/-- A call, a directive without a reason, and a declaration that gives one on its own line. -/
def shadowedText : List Char :=
  "f();\n// hoist-lint: allow(vars-on-top)\nvar a; // hoist-lint: allow(vars-on-top) reason=\"kept\"".toList

def shadowedTree : Concrete :=
  .node ⟨"program", 0, 93, none, .named⟩
    [.node ⟨"expression_statement", 0, 4, none, .named⟩
      [.node ⟨"call_expression", 0, 3, none, .named⟩
        [.node ⟨"identifier", 0, 1, some "function", .named⟩ [],
          .node ⟨"arguments", 1, 3, some "arguments", .named⟩ []]],
    .node ⟨"comment", 5, 38, none, .named⟩ [],
    .node ⟨"variable_declaration", 39, 45, none, .named⟩
      [.node ⟨"variable_declarator", 43, 44, none, .named⟩
        [.node ⟨"identifier", 43, 44, some "name", .named⟩ []]],
    .node ⟨"comment", 46, 93, none, .named⟩ []]

/-- The declaration gives a reason on its own line, and still the directive above it is heard and the
missing reason is reported. -/
theorem permission_shadowed :
    let o := Outline.ofConcrete shadowedText shadowedTree
    let file : SourceFile := ⟨⟨[]⟩, ⟨[]⟩, shadowedText, .javaScript⟩
    Grants shadowedText 3 TopRule.name.toList (some "kept".toList) ∧
      permission shadowedText 3 TopRule.name.toList = .allowed none ∧
      Outline.parse shadowedText shadowedTree = .ok o ∧ (o.span 5).line = 3 ∧
      ({} : TopRule).check file o = [TopRule.missingReason file o 5] :=
  ⟨permissionOf_eq_allowed_iff.mp (by decide +kernel), by decide +kernel, rfl, by decide +kernel,
    by decide +kernel⟩

end Directive

end ScopeLint
