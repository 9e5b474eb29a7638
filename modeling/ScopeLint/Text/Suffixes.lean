/-!
# Tables over the suffixes of a list

A matcher that tries every way to go on takes long where many ways lead to the same suffix. Instead it
can keep a table: one truth value for each suffix of the text, the text itself first and the empty
suffix last. A step of a pattern turns the table of what follows it into its own, in one pass.

Each operation here is such a pass, and a theorem says what it computes on the table of a predicate
`f`, which is `(suffixes xs).map f`.
-/

namespace ScopeLint.Text

variable {α : Type}

/-- The suffixes of a list, the list itself first. -/
def suffixes : List α → List (List α)
  | [] => [[]]
  | x :: xs => (x :: xs) :: suffixes xs

/-- The suffixes that follow an element with a property. -/
def suffixesAfter (p : α → Bool) : List α → List (List α)
  | [] => []
  | x :: xs => if p x then xs :: suffixesAfter p xs else suffixesAfter p xs

/-- The suffixes that are reached through elements with a property. -/
def suffixesThrough (p : α → Bool) : List α → List (List α)
  | [] => [[]]
  | x :: xs => if p x then (x :: xs) :: suffixesThrough p xs else [x :: xs]

/-- The table of the empty list: only the last suffix is marked. -/
def onlyLast : List α → List Bool
  | [] => [true]
  | _ :: xs => false :: onlyLast xs

/-- Mark a suffix if one element with a property leads from it to a marked one. -/
def orNext (p : α → Bool) : List α → List Bool → List Bool
  | [], _ => [false]
  | x :: xs, marks => (p x && marks.tail.headD false) :: orNext p xs marks.tail

/-- Mark a suffix if it is marked or a later one is. -/
def orLater : List Bool → List Bool
  | [] => []
  | mark :: marks =>
      let more := orLater marks
      (mark || more.headD false) :: more

/-- Mark a suffix if a marked one follows an element with a property in it. -/
def orAfter (p : α → Bool) : List α → List Bool → List Bool
  | [], _ => [false]
  | x :: xs, marks =>
      let more := orAfter p xs marks.tail
      ((p x && marks.tail.headD false) || more.headD false) :: more

/-- Mark a suffix if elements with a property, or none, lead from it to a marked one. -/
def orThrough (p : α → Bool) : List α → List Bool → List Bool
  | [], marks => marks
  | x :: xs, marks =>
      let more := orThrough p xs marks.tail
      (marks.headD false || (p x && more.headD false)) :: more

@[simp] theorem head?_suffixes (xs : List α) : (suffixes xs).head? = some xs := by
  cases xs <;> rfl

@[simp] theorem getLast?_suffixes (xs : List α) : (suffixes xs).getLast? = some [] := by
  induction xs with
  | nil => rfl
  | cons x xs ih => simp [suffixes, List.getLast?_cons, ih]

theorem onlyLast_eq (xs : List α) : onlyLast xs = (suffixes xs).map List.isEmpty := by
  induction xs with
  | nil => rfl
  | cons x xs ih => simp [onlyLast, suffixes, ih]

theorem orNext_eq (p : α → Bool) (f : List α → Bool) (xs : List α) :
    orNext p xs ((suffixes xs).map f) =
      (suffixes xs).map fun s =>
        match s with
        | [] => false
        | x :: rest => p x && f rest := by
  induction xs with
  | nil => rfl
  | cons x xs ih => simp [orNext, suffixes, ih]

theorem orLater_eq (f : List α → Bool) (xs : List α) :
    orLater ((suffixes xs).map f) = (suffixes xs).map fun s => (suffixes s).any f := by
  induction xs with
  | nil => simp [orLater, suffixes]
  | cons x xs ih => simp [orLater, suffixes, ih]

theorem orAfter_eq (p : α → Bool) (f : List α → Bool) (xs : List α) :
    orAfter p xs ((suffixes xs).map f) = (suffixes xs).map fun s => (suffixesAfter p s).any f := by
  induction xs with
  | nil => rfl
  | cons x xs ih =>
      by_cases h : p x <;> simp [orAfter, suffixes, suffixesAfter, ih, h]

theorem orThrough_eq (p : α → Bool) (f : List α → Bool) (xs : List α) :
    orThrough p xs ((suffixes xs).map f) = (suffixes xs).map fun s => (suffixesThrough p s).any f := by
  induction xs with
  | nil => simp [orThrough, suffixes, suffixesThrough]
  | cons x xs ih =>
      by_cases h : p x <;> simp [orThrough, suffixes, suffixesThrough, ih, h]

end ScopeLint.Text
