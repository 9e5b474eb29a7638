import ScopeLint.Proofs.ByteOrder
import ScopeLint.Proofs.Sorting

/-!
# The order of a report

A report is in the order of the places of its findings. `Before` states this order without reference to the
keys that are compared: files component by component, where `/` comes before `.`, this before `..` and this
before all names, and names by their bytes; in one file by line and then by column. Two findings are at the
same place when the components of their files, their lines and their columns agree, and sorting leaves these
in the order in which they were found.
-/

namespace ScopeLint

namespace Component

variable {a b : Component}

/-- The kinds of components in their order. -/
def rank : Component → Nat
  | root => 0
  | current => 1
  | parent => 2
  | name _ => 3

/-- The text of a name; other components have none. -/
def chars : Component → List Char
  | name chars => chars
  | _ => []

/-- Whether a component comes before another one: by its kind, or among names by its bytes. -/
def Before (a b : Component) : Prop :=
  a.rank < b.rank ∨ a.rank = b.rank ∧ Text.utf8 a.chars < Text.utf8 b.chars

theorem key_eq (a : Component) : a.key = a.rank :: a.chars.map Char.toNat := by
  cases a <;> rfl

theorem compare_key_eq_iff : compare a.key b.key = .eq ↔ a = b := by
  rw [Std.compare_eq_iff_eq, key_injective.eq_iff]

theorem compare_key_lt_iff : compare a.key b.key = .lt ↔ Before a b := by
  rw [key_eq, key_eq, List.compare_cons_cons, Ordering.then_eq_lt, Nat.compare_eq_lt, Nat.compare_eq_eq,
    Text.compare_codes_lt_iff, Before]

end Component

namespace Path

variable {p q : Path}

/-- Whether a path comes before another one, component by component. -/
def Before (p q : Path) : Prop :=
  List.Lex Component.Before p.components q.components

theorem compare_key_lt_iff : compare p.key q.key = .lt ↔ p.Before q :=
  compare_map_eq_lt_iff (fun _ _ => Component.compare_key_eq_iff) (fun _ _ => Component.compare_key_lt_iff)
    p.components q.components

theorem compare_key_isLE_iff :
    (compare p.key q.key).isLE ↔ p.Before q ∨ p.components = q.components := by
  rw [Ordering.isLE_iff_eq_lt_or_eq_eq, compare_key_lt_iff, Std.compare_eq_iff_eq, key_eq_iff]

end Path

namespace Report

variable {a b : Finding}

/-- Whether two findings are at the same place, however their files are spelled. -/
structure SamePlace (a b : Finding) : Prop where
  file : a.location.file.components = b.location.file.components
  line : a.location.line = b.location.line
  column : a.location.column = b.location.column

/-- Whether a finding is at an earlier place than another one. -/
inductive Before (a b : Finding) : Prop
  | file (earlier : a.location.file.Before b.location.file)
  | line (file : a.location.file.components = b.location.file.components)
      (earlier : a.location.line < b.location.line)
  | column (file : a.location.file.components = b.location.file.components)
      (line : a.location.line = b.location.line) (earlier : a.location.column < b.location.column)

theorem comparePlaces_eq_lt_iff : comparePlaces a b = .lt ↔ Before a b := by
  rw [comparePlaces, Ordering.then_eq_lt, Ordering.then_eq_lt, Path.compare_key_lt_iff,
    Std.compare_eq_iff_eq, Path.key_eq_iff, Nat.compare_eq_lt, Nat.compare_eq_eq, Nat.compare_eq_lt]
  constructor
  · rintro (earlier | ⟨file, earlier | ⟨line, earlier⟩⟩)
    · exact .file earlier
    · exact .line file earlier
    · exact .column file line earlier
  · rintro (earlier | ⟨file, earlier⟩ | ⟨file, line, earlier⟩)
    · exact .inl earlier
    · exact .inr ⟨file, .inl earlier⟩
    · exact .inr ⟨file, .inr ⟨line, earlier⟩⟩

theorem comparePlaces_eq_eq_iff : comparePlaces a b = .eq ↔ SamePlace a b := by
  rw [comparePlaces, Ordering.then_eq_eq, Ordering.then_eq_eq, Std.compare_eq_iff_eq, Path.key_eq_iff,
    Nat.compare_eq_eq, Nat.compare_eq_eq]
  constructor
  · rintro ⟨file, line, column⟩
    exact ⟨file, line, column⟩
  · rintro ⟨file, line, column⟩
    exact ⟨file, line, column⟩

theorem comparePlaces_isLE_iff : (comparePlaces a b).isLE ↔ Before a b ∨ SamePlace a b := by
  rw [Ordering.isLE_iff_eq_lt_or_eq_eq, comparePlaces_eq_lt_iff, comparePlaces_eq_eq_iff]

instance : Decidable (SamePlace a b) :=
  decidable_of_iff (comparePlaces a b = .eq) comparePlaces_eq_eq_iff

/-- Whether a comparison of findings goes by their places. -/
structure ComparesPlaces (cmp : Finding → Finding → Ordering) : Prop where
  earlier : ∀ a b, cmp a b = .lt ↔ Before a b
  same : ∀ a b, cmp a b = .eq ↔ SamePlace a b
  later : ∀ a b, cmp a b = .gt ↔ Before b a
  total : ∀ a b, (cmp a b).isLE ∨ (cmp b a).isLE
  trans : ∀ a b c, (cmp a b).isLE → (cmp b c).isLE → (cmp a c).isLE

theorem comparePlaces_comparesPlaces : ComparesPlaces comparePlaces where
  earlier _ _ := comparePlaces_eq_lt_iff
  same _ _ := comparePlaces_eq_eq_iff
  later _ _ := by rw [Std.OrientedCmp.gt_iff_lt, comparePlaces_eq_lt_iff]
  total a b := by simpa using @isLE_total _ comparePlaces _ a b
  trans _ _ _ := Std.TransCmp.isLE_trans

theorem sort_sort (r : Report) : r.sort.sort = r.sort := by
  have sorted : (r.findings.mergeSort fun a b => (comparePlaces a b).isLE).Pairwise
      fun a b => (comparePlaces a b).isLE := mergeSort_ascending r.findings
  simp only [sort, List.mergeSort_of_pairwise sorted]

/-- Sorting a report is a stable sort by place, however the files are spelled: it keeps the findings and
puts them in ascending order, those at the same place in the order in which they were found. Sorting again
changes nothing, and where no two findings are at the same place the order they came in does not matter. -/
theorem sort_byPlace (r : Report) :
    ComparesPlaces comparePlaces ∧ r.sort.filesChecked = r.filesChecked ∧
      SortedFrom comparePlaces r.findings r.sort.findings ∧ r.sort.sort = r.sort ∧
      ∀ s : Report, s.findings.Perm r.findings → r.findings.Pairwise (fun a b => ¬ SamePlace a b) →
        s.sort.findings = r.sort.findings := by
  refine ⟨comparePlaces_comparesPlaces, rfl, mergeSort_sortedFrom r.findings, sort_sort r, ?_⟩
  intro s same apart
  have distinct : r.findings.Pairwise fun a b => comparePlaces a b ≠ .eq :=
    apart.imp fun apart equal => apart (comparePlaces_eq_eq_iff.mp equal)
  exact (mergeSort_eq_of_perm same.symm distinct).symm

/-- A finding at a place, with nothing else to tell it by than its message. -/
def marked (file : String) (line column : Nat) (message : String := "") : Finding :=
  { code := "HL001", rule := "vars-on-top", severity := .error, message
    location := { file := .ofString file, line, column } }

/-- Findings in five files, one of which is spelled in three ways. -/
def scattered : Report :=
  { findings :=
      [marked "src//a.js" 9 1, marked "b.js" 1 1, marked "../c.js" 2 7, marked "src/a.js/" 2 3,
        marked "./b.js" 1 1, marked "/src/a.js" 1 1, marked "src/./a.js" 2 1]
    filesChecked := 5 }

theorem sort_byPlace_scattered :
    let ordered : List Finding :=
      [marked "/src/a.js" 1 1, marked "./b.js" 1 1, marked "../c.js" 2 7, marked "b.js" 1 1,
        marked "src/./a.js" 2 1, marked "src/a.js/" 2 3, marked "src//a.js" 9 1]
    ordered.Perm scattered.findings ∧ scattered.findings.Pairwise (fun a b => ¬ SamePlace a b) ∧
      scattered.sort.findings = ordered := by
  intro ordered
  have same : ordered.Perm scattered.findings := by decide +kernel
  have apart : scattered.findings.Pairwise fun a b => ¬ SamePlace a b := by decide +kernel
  have ascending : ordered.Pairwise fun a b => (comparePlaces a b).isLE := by decide +kernel
  refine ⟨same, apart, ?_⟩
  rw [← (sort_byPlace scattered).2.2.2.2 ⟨ordered, 5⟩ same apart]
  exact List.mergeSort_of_pairwise ascending

example :
    (sort { findings := [marked "b.js" 1 1, marked "a/./b.js" 3 1 "first", marked "a//b.js" 3 1 "second"] }
      ).findings = [marked "a/./b.js" 3 1 "first", marked "a//b.js" 3 1 "second", marked "b.js" 1 1] := by
  cbv

end Report

end ScopeLint
