import Mathlib.Data.List.TakeWhile
import ScopeLint.Placement

/-!
# The cut through the statements of a scope

The statements of a scope fall into three parts: the prologue, the run of declarations after it, each as
long as it can be, and the rest. Looking for a declaration finds it on top exactly in the run. Otherwise
it stops at the first statement of the rest, whatever was looked for, and without a rest it finds nothing.
-/

namespace ScopeLint.Placement

variable {o : Outline} {statements prologue run rest : List Nat} {s target : Nat}

/-- Whether a statement may stand in the prologue: an expression statement that begins with a string
literal, or any part of an import. -/
inductive InPrologue (o : Outline) (s : Nat) : Prop
  | directive {literal : Nat} (statement : o.kind s = .expressionStatement)
      (first : (o.children s).head? = some literal) (isString : o.kind literal = .stringLiteral) :
      InPrologue o s
  | imported {part : ImportPart} (kind : o.kind s = .imported part) : InPrologue o s

/-- Whether a statement is a variable declaration of any keyword, or an export statement around one. -/
inductive DeclarationForm (o : Outline) (s : Nat) : Prop
  | bare {keyword : Keyword} (kind : o.kind s = .declaration keyword) : DeclarationForm o s
  | exported {payload : Nat} {keyword : Keyword} (kind : o.kind s = .exported)
      (wraps : o.payload? s = some payload) (declares : o.kind payload = .declaration keyword) :
      DeclarationForm o s

theorem isImport_iff {kind : Kind} : kind.isImport ↔ ∃ part, kind = .imported part := by
  cases kind <;> simp [Kind.isImport]

theorem isDeclaration_iff {kind : Kind} : kind.isDeclaration ↔ ∃ keyword, kind = .declaration keyword := by
  cases kind <;> simp [Kind.isDeclaration]

theorem isFunction_iff {kind : Kind} : kind.isFunction ↔ ∃ form, kind = .function form := by
  cases kind <;> simp [Kind.isFunction]

theorem expression?_eq_some_iff {literal : Nat} : o.expression? s = some literal ↔
    o.kind s = .expressionStatement ∧ (o.children s).head? = some literal := by
  rw [Outline.expression?]
  split
  · rename_i statement
    exact (and_iff_right statement).symm
  · rename_i other
    exact ⟨nofun, fun both => absurd both.1 other⟩

theorem isDirective_iff : isDirective o s ↔
    ∃ literal, o.expression? s = some literal ∧ o.kind literal = .stringLiteral := by
  rw [isDirective]
  cases o.expression? s <;> simp

theorem isPrologue_iff : isPrologue o s ↔ InPrologue o s := by
  rw [isPrologue, Bool.or_eq_true, isDirective_iff, isImport_iff]
  constructor
  · rintro (⟨literal, expression, isString⟩ | ⟨part, kind⟩)
    · obtain ⟨statement, first⟩ := expression?_eq_some_iff.mp expression
      exact .directive statement first isString
    · exact .imported kind
  · rintro (⟨statement, first, isString⟩ | ⟨kind⟩)
    · exact .inl ⟨_, expression?_eq_some_iff.mpr ⟨statement, first⟩, isString⟩
    · exact .inr ⟨_, kind⟩

theorem declares_iff : declares o s ↔ DeclarationForm o s := by
  constructor
  · intro holds
    rw [declares] at holds
    split at holds
    · exact .bare ‹_›
    · split at holds
      · obtain ⟨keyword, kind⟩ := isDeclaration_iff.mp holds
        exact .exported ‹_› ‹_› kind
      · cases holds
    · cases holds
  · rintro (kind | ⟨kind, wraps, payload⟩)
    · simp [declares, kind]
    · simp [declares, kind, wraps, payload, Kind.isDeclaration]

theorem DeclarationForm.not_inPrologue (form : DeclarationForm o s) : ¬ InPrologue o s := by
  rintro (⟨statement, _, _⟩ | kind) <;> cases form <;> simp_all

/-- The statements of a scope in three parts: the prologue, the declarations after it, both of them as
long as they can be, and the rest. -/
structure Cut (o : Outline) (statements prologue run rest : List Nat) : Prop where
  parts : statements = prologue ++ (run ++ rest)
  prologue : ∀ s ∈ prologue, InPrologue o s
  prologue_ends : ∀ s ∈ (run ++ rest).head?, ¬ InPrologue o s
  run : ∀ s ∈ run, DeclarationForm o s
  run_ends : ∀ s ∈ rest.head?, ¬ DeclarationForm o s

theorem exists_cut (o : Outline) (statements : List Nat) :
    ∃ prologue run rest, Cut o statements prologue run rest := by
  have stops : ∀ (p : Nat → Bool) (xs : List Nat), ∀ s ∈ (xs.dropWhile p).head?, ¬ p s := by
    intro p xs s first
    have kept := List.head?_dropWhile_not p xs
    rw [Option.mem_def.mp first] at kept
    simpa using kept
  let after := statements.dropWhile (isPrologue o)
  have whole : after.takeWhile (declares o) ++ after.dropWhile (declares o) = after :=
    List.takeWhile_append_dropWhile
  refine ⟨statements.takeWhile (isPrologue o), after.takeWhile (declares o),
    after.dropWhile (declares o), ?_, ?_, ?_, ?_, ?_⟩
  · rw [whole]
    exact List.takeWhile_append_dropWhile.symm
  · exact fun s member => isPrologue_iff.mp (List.mem_takeWhile_imp member)
  · intro s first inPrologue
    rw [whole] at first
    exact stops _ _ s first (isPrologue_iff.mpr inPrologue)
  · exact fun s member => declares_iff.mp (List.mem_takeWhile_imp member)
  · exact fun s first form => stops _ _ s first (declares_iff.mpr form)

theorem dropWhile_prologue (all : ∀ s ∈ prologue, InPrologue o s)
    (ends : ∀ s ∈ rest.head?, ¬ InPrologue o s) :
    (prologue ++ rest).dropWhile (isPrologue o) = rest := by
  rw [List.dropWhile_append_of_pos fun s member => isPrologue_iff.mpr (all s member)]
  cases rest with
  | nil => rfl
  | cons s rest =>
      refine List.dropWhile_cons_of_neg fun holds => ?_
      exact ends s rfl (isPrologue_iff.mp holds)

/-- What a search finds where no declaration stands. -/
def stopAt : Option Nat → Search
  | some s => .blocked s
  | none => .notFound

theorem searchRun_append (all : ∀ s ∈ run, DeclarationForm o s) (rest : List Nat) :
    searchRun o target (run ++ rest) = if target ∈ run then .onTop else searchRun o target rest := by
  induction run with
  | nil => rfl
  | cons s run ih =>
      obtain ⟨first, later⟩ := List.forall_mem_cons.mp all
      rw [List.cons_append, searchRun, declares_iff.mpr first, ih later]
      by_cases here : s = target
      · simp [here]
      · simp [here, Ne.symm here]

theorem searchRun_stops (ends : ∀ s ∈ rest.head?, ¬ DeclarationForm o s) :
    searchRun o target rest = stopAt rest.head? := by
  cases rest with
  | nil => rfl
  | cons s rest =>
      have blocks : declares o s = false := by
        rw [← Bool.not_eq_true, declares_iff]
        exact ends s rfl
      rw [searchRun, blocks]
      rfl

namespace Cut

/-- What a search finds, by the cut: the target in the run, or else the first of the rest. -/
theorem search_eq (cut : Cut o statements prologue run rest) (target : Nat) :
    search o target statements = if target ∈ run then .onTop else stopAt rest.head? := by
  rw [search, cut.parts, dropWhile_prologue cut.prologue cut.prologue_ends, searchRun_append cut.run,
    searchRun_stops cut.run_ends]

/-- A declaration of the list that is not in the run stands behind the statement that ends the run. -/
theorem exists_blocker (cut : Cut o statements prologue run rest) (form : DeclarationForm o target)
    (member : target ∈ statements) (late : target ∉ run) :
    ∃ b between after, rest.head? = some b ∧ ¬ DeclarationForm o b ∧
      statements = prologue ++ run ++ b :: between ++ target :: after := by
  have left : target ∈ rest := by
    rw [cut.parts, List.mem_append, List.mem_append] at member
    rcases member with early | inRun | left
    · exact absurd (cut.prologue target early) form.not_inPrologue
    · exact absurd inRun late
    · exact left
  cases rest with
  | nil => cases left
  | cons b rest =>
      have blocks : ¬ DeclarationForm o b := cut.run_ends b rfl
      have behind : target ∈ rest := by
        rcases List.mem_cons.mp left with rfl | behind
        · exact absurd form blocks
        · exact behind
      obtain ⟨between, after, split⟩ := List.append_of_mem behind
      refine ⟨b, between, after, rfl, blocks, ?_⟩
      rw [cut.parts, split]
      simp

end Cut

/-- Whether a statement has nothing before it but a prologue and then declarations. -/
def OnTop (o : Outline) (statements : List Nat) (target : Nat) : Prop :=
  ∃ prologue run after, statements = prologue ++ (run ++ target :: after) ∧
    (∀ s ∈ prologue, InPrologue o s) ∧ ∀ s ∈ run, DeclarationForm o s

/-- A declaration is found on top exactly when it stands there. -/
theorem search_eq_onTop_iff (form : DeclarationForm o target) :
    search o target statements = .onTop ↔ OnTop o statements target := by
  constructor
  · intro found
    obtain ⟨prologue, run, rest, cut⟩ := exists_cut o statements
    have inRun : target ∈ run := by
      by_contra late
      rw [cut.search_eq, if_neg late] at found
      cases first : rest.head? <;> rw [first] at found <;> cases found
    obtain ⟨before, after, split⟩ := List.append_of_mem inRun
    refine ⟨prologue, before, after ++ rest, ?_, cut.prologue, ?_⟩
    · rw [cut.parts, split, List.append_assoc, List.cons_append]
    · intro s member
      exact cut.run s (split ▸ List.mem_append_left _ member)
  · rintro ⟨prologue, run, after, rfl, early, between⟩
    have ends : ∀ s ∈ (run ++ target :: after).head?, ¬ InPrologue o s := by
      cases run with
      | nil =>
          rintro s ⟨⟩
          exact form.not_inPrologue
      | cons first run =>
          rintro s ⟨⟩
          exact (between first List.mem_cons_self).not_inPrologue
    -- the target itself belongs to the run, so the search ends there at the latest
    have through : ∀ s ∈ run ++ [target], DeclarationForm o s := by
      intro s member
      rcases List.mem_append.mp member with inRun | isTarget
      · exact between s inRun
      · rw [List.mem_singleton.mp isTarget]
        exact form
    rw [search, dropWhile_prologue early ends, ← List.singleton_append, ← List.append_assoc,
      searchRun_append through]
    simp

end ScopeLint.Placement
