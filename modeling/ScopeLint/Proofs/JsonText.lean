import ScopeLint.Json.Reader
import ScopeLint.Proofs.JsonLiterals

/-!
# Reading what was written

`Spells` says of a text that it is one of a value, with blanks where the two layouts put them: before the
items and keys of a container, before the value of a member, and before a closing bracket. Reading such a
text gives the value back. Each layout spells every plain value, that is, every value without a mark of a
fault and with natural numbers only.
-/

namespace ScopeLint.Json

variable {cs rest left text : List Char} {fuel : Nat} {j : Json}

/-! ## Texts of values -/

/-- An item of an array: its value and text, and the blanks before it. -/
structure Item where
  value : Json
  lead : List Char
  text : List Char

def Item.chars (i : Item) : List Char :=
  i.lead ++ i.text

/-- A member of an object: its key, the blanks before it, and what follows the colon. -/
structure Member where
  lead : List Char
  key : List Char
  item : Item

def Member.chars (m : Member) : List Char :=
  m.lead ++ (writeString m.key ++ ':' :: m.item.chars)

/-- Whether a text is one of a value. -/
inductive Spells : Json → List Char → Prop
  | null : Spells null "null".toList
  | true : Spells (bool true) "true".toList
  | false : Spells (bool false) "false".toList
  | natural (n : Nat) : Spells (ofNat n) (Nat.toDigits 10 n)
  | string (s : List Char) : Spells (string s) (writeString s)
  | array (items : List Item) (trail : List Char) (blank : Blank trail)
      (leads : ∀ i ∈ items, Blank i.lead) (each : ∀ i ∈ items, Spells i.value i.text) :
      Spells (array (items.map Item.value))
        ('[' :: Text.joinWith ',' (items.map Item.chars) ++ trail ++ [']'])
  | object (members : List Member) (trail : List Char) (blank : Blank trail)
      (leads : ∀ m ∈ members, Blank m.lead ∧ Blank m.item.lead)
      (each : ∀ m ∈ members, Spells m.item.value m.item.text) :
      Spells (object (members.map fun m => (m.key, m.item.value)))
        ('\x7b' :: Text.joinWith ',' (members.map Member.chars) ++ trail ++ ['\x7d'])

/-- Whether a text of a value is read as that value, given fuel for its length. -/
def Reads (j : Json) (text : List Char) : Prop :=
  ∀ fuel rest, Ends rest → 2 * text.length ≤ fuel → readValue fuel (text ++ rest) = (j, some rest)

theorem readValue_append (blank : Blank left) (fuel : Nat) (cs : List Char) :
    readValue fuel (left ++ cs) = readValue fuel cs := by
  cases fuel with
  | zero => rfl
  | succ fuel => rw [readValue, readValue, skipSpace_append blank]

theorem readItems_append (blank : Blank left) (fuel : Nat) (cs : List Char) :
    readItems fuel (left ++ cs) = readItems fuel cs := by
  cases fuel with
  | zero => rfl
  | succ fuel => rw [readItems, readItems, readValue_append blank]

theorem readMembers_append (blank : Blank left) (fuel : Nat) (cs : List Char) :
    readMembers fuel (left ++ cs) = readMembers fuel cs := by
  cases fuel with
  | zero => rfl
  | succ fuel => rw [readMembers, readMembers, readValue_append blank]

/-- The first character of a value is no blank and closes nothing. -/
theorem Spells.first (spells : Spells j text) :
    ∃ c cs, text = c :: cs ∧ isSpace c = Bool.false ∧ c ≠ ']' := by
  cases spells with
  | null => exact ⟨_, _, rfl, by decide, by decide⟩
  | true => exact ⟨_, _, rfl, by decide, by decide⟩
  | false => exact ⟨_, _, rfl, by decide, by decide⟩
  | natural n =>
      obtain ⟨digit, digits, split, isDigit⟩ := exists_digit n
      refine ⟨digit, digits, split, ?_, ?_⟩
      · by_contra space
        simp only [isSpace, Bool.not_eq_false, Bool.or_eq_true, decide_eq_true_eq] at space
        rcases space with ((rfl | rfl) | rfl) | rfl <;> cases isDigit
      · rintro rfl
        cases isDigit
  | string s => exact ⟨_, _, rfl, by decide, by decide⟩
  | array items trail => exact ⟨_, _, rfl, by decide, by decide⟩
  | object members trail => exact ⟨_, _, rfl, by decide, by decide⟩

/-- A text that is not empty comes with fuel for one step. -/
theorem reads_of_step (filled : text ≠ [])
    (step : ∀ fuel rest, Ends rest → 2 * text.length ≤ fuel + 1 →
      readValue (fuel + 1) (text ++ rest) = (j, some rest)) : Reads j text := by
  intro fuel rest ends enough
  have longer : 0 < text.length := List.length_pos_iff.mpr filled
  cases fuel with
  | zero => omega
  | succ fuel => exact step fuel rest ends enough

theorem reads_natural (n : Nat) : Reads (ofNat n) (Nat.toDigits 10 n) := by
  refine reads_of_step Nat.toDigits_ne_nil fun fuel rest ends _ => ?_
  obtain ⟨c, cs, start, other, _⟩ := (Spells.natural n).first
  obtain ⟨digit, digits, split, isDigit⟩ := exists_digit n
  have read := readNumber_toDigits n ends
  obtain ⟨rfl, rfl⟩ : digit = c ∧ digits = cs := List.cons.inj (split.symm.trans start)
  rw [start, List.cons_append] at read ⊢
  have apart : ∀ c : Char, c.isDigit = Bool.false → digit ≠ c := by
    rintro c noDigit rfl
    rw [isDigit] at noDigit
    cases noDigit
  rw [readValue, skipSpace_cons other]
  split
  · rename_i same
    cases same
  · rename_i same
    exact absurd (List.cons.inj same).1 (apart '"' (by decide))
  · rename_i same
    exact absurd (List.cons.inj same).1 (apart '[' (by decide))
  · rename_i same
    exact absurd (List.cons.inj same).1 (apart '\x7b' (by decide))
  · rename_i same
    obtain ⟨rfl, rfl⟩ := List.cons.inj same
    rw [if_neg (apart 'n' (by decide)), if_neg (apart 't' (by decide)), if_neg (apart 'f' (by decide)),
      read]
    rfl

theorem reads_string (s : List Char) : Reads (string s) (writeString s) := by
  refine reads_of_step (List.cons_ne_nil _ _) fun fuel rest _ _ => ?_
  have whole : writeString s ++ rest = '"' :: (s.flatMap escape ++ '"' :: rest) := by
    simp [writeString]
  rw [whole, readValue, skipSpace_cons (by decide)]
  simp only [readString_written]

/-! ## Containers -/

theorem skipSpace_trail {trail : List Char} {c : Char} (blank : Blank trail) (other : isSpace c = false)
    (rest : List Char) : skipSpace (trail ++ c :: rest) = c :: rest := by
  rw [skipSpace_append blank, skipSpace_cons other]

theorem readItems_last {trail : List Char} (blank : Blank trail)
    (read : readValue fuel cs = (j, some (trail ++ ']' :: rest))) :
    readItems (fuel + 1) cs = ([j], some rest) := by
  rw [readItems, read]
  simp only [skipSpace_trail blank (by decide : isSpace ']' = false)]

theorem readItems_more {more : List Char} (read : readValue fuel cs = (j, some (',' :: more))) :
    readItems (fuel + 1) cs = (j :: (readItems fuel more).1, (readItems fuel more).2) := by
  rw [readItems, read]
  simp only [skipSpace_cons (by decide : isSpace ',' = false)]

theorem readMembers_last {trail key after : List Char} (blank : Blank trail)
    (readKey : readValue fuel cs = (string key, some (':' :: after)))
    (read : readValue fuel after = (j, some (trail ++ '\x7d' :: rest))) :
    readMembers (fuel + 1) cs = ([(key, j)], some rest) := by
  rw [readMembers, readKey]
  simp only [skipSpace_cons (by decide : isSpace ':' = false), isKey, read,
    skipSpace_trail blank (by decide : isSpace '\x7d' = false), member]

theorem readMembers_more {key after more : List Char}
    (readKey : readValue fuel cs = (string key, some (':' :: after)))
    (read : readValue fuel after = (j, some (',' :: more))) :
    readMembers (fuel + 1) cs = ((key, j) :: (readMembers fuel more).1, (readMembers fuel more).2) := by
  rw [readMembers, readKey]
  simp only [skipSpace_cons (by decide : isSpace ':' = false), isKey, read,
    skipSpace_cons (by decide : isSpace ',' = false), member]

theorem Ends.comma (rest : List Char) : Ends (',' :: rest) :=
  .cons (by decide) (by decide) (by decide) (by decide) rest

theorem readItems_written {items : List Item} {trail : List Char} (blank : Blank trail)
    (leads : ∀ i ∈ items, Blank i.lead) (each : ∀ i ∈ items, Reads i.value i.text)
    (inhabited : items ≠ []) (rest : List Char)
    (enough : 2 * (Text.joinWith ',' (items.map Item.chars)).length < fuel) :
    readItems fuel (Text.joinWith ',' (items.map Item.chars) ++ (trail ++ ']' :: rest)) =
      (items.map Item.value, some rest) := by
  induction items generalizing fuel with
  | nil => exact absurd rfl inhabited
  | cons item items ih =>
      obtain ⟨lead, leads⟩ := List.forall_mem_cons.mp leads
      obtain ⟨reads, each⟩ := List.forall_mem_cons.mp each
      obtain ⟨fuel, rfl⟩ : ∃ less, fuel = less + 1 := ⟨fuel - 1, by omega⟩
      cases items with
      | nil =>
          have whole : Text.joinWith ',' ([item].map Item.chars) = item.lead ++ item.text := rfl
          rw [whole, List.length_append] at enough
          rw [whole, List.append_assoc, readItems_append lead]
          have ends : Ends (trail ++ ']' :: rest) :=
            .append blank (.cons (by decide) (by decide) (by decide) (by decide) rest)
          exact readItems_last blank (reads fuel _ ends (by omega))
      | cons next items =>
          have whole : Text.joinWith ',' ((item :: next :: items).map Item.chars) =
              item.lead ++ (item.text ++ ',' :: Text.joinWith ',' ((next :: items).map Item.chars)) := by
            simp [Text.joinWith, Item.chars]
          rw [whole, List.length_append, List.length_append, List.length_cons] at enough
          rw [whole, List.append_assoc, readItems_append lead, List.append_assoc, List.cons_append,
            readItems_more (reads fuel _ (.comma _) (by omega)),
            ih leads each (List.cons_ne_nil _ _) (by omega)]
          rfl

theorem readMembers_written {members : List Member} {trail : List Char} (blank : Blank trail)
    (leads : ∀ m ∈ members, Blank m.lead ∧ Blank m.item.lead)
    (each : ∀ m ∈ members, Reads m.item.value m.item.text)
    (inhabited : members ≠ []) (rest : List Char)
    (enough : 2 * (Text.joinWith ',' (members.map Member.chars)).length < fuel) :
    readMembers fuel (Text.joinWith ',' (members.map Member.chars) ++ (trail ++ '\x7d' :: rest)) =
      (members.map fun m => (m.key, m.item.value), some rest) := by
  induction members generalizing fuel with
  | nil => exact absurd rfl inhabited
  | cons m members ih =>
      obtain ⟨⟨lead, gap⟩, leads⟩ := List.forall_mem_cons.mp leads
      obtain ⟨reads, each⟩ := List.forall_mem_cons.mp each
      obtain ⟨fuel, rfl⟩ : ∃ less, fuel = less + 1 := ⟨fuel - 1, by omega⟩
      have colon : ∀ after, Ends (':' :: after) :=
        .cons (by decide) (by decide) (by decide) (by decide)
      cases members with
      | nil =>
          have whole : Text.joinWith ',' ([m].map Member.chars) =
              m.lead ++ (writeString m.key ++ ':' :: (m.item.lead ++ m.item.text)) := rfl
          rw [whole] at enough
          simp only [List.length_append, List.length_cons] at enough
          rw [whole, List.append_assoc, readMembers_append lead, List.append_assoc, List.cons_append,
            List.append_assoc]
          have ends : Ends (trail ++ '\x7d' :: rest) :=
            .append blank (.cons (by decide) (by decide) (by decide) (by decide) rest)
          refine readMembers_last blank (reads_string m.key fuel _ (colon _) (by omega)) ?_
          rw [readValue_append gap]
          exact reads fuel _ ends (by omega)
      | cons next members =>
          have whole : Text.joinWith ',' ((m :: next :: members).map Member.chars) =
              m.lead ++ (writeString m.key ++ ':' :: (m.item.lead ++ (m.item.text ++
                ',' :: Text.joinWith ',' ((next :: members).map Member.chars)))) := by
            simp [Text.joinWith, Member.chars, Item.chars]
          rw [whole] at enough
          simp only [List.length_append, List.length_cons] at enough
          rw [whole, List.append_assoc, readMembers_append lead, List.append_assoc, List.cons_append,
            List.append_assoc, List.append_assoc, List.cons_append]
          have read := reads fuel _ (.comma (Text.joinWith ',' ((next :: members).map Member.chars) ++
            (trail ++ '\x7d' :: rest))) (by omega)
          rw [← readValue_append gap] at read
          rw [readMembers_more (reads_string m.key fuel _ (colon _) (by omega)) read,
            ih leads each (List.cons_ne_nil _ _) (by omega)]
          rfl

theorem readItems_skipSpace (fuel : Nat) (cs : List Char) :
    readItems fuel (skipSpace cs) = readItems fuel cs := by
  have blank : Blank (cs.takeWhile isSpace) := fun _ member => List.mem_takeWhile_imp member
  have split : cs.takeWhile isSpace ++ skipSpace cs = cs := List.takeWhile_append_dropWhile
  rw [← readItems_append blank, split]

theorem readMembers_skipSpace (fuel : Nat) (cs : List Char) :
    readMembers fuel (skipSpace cs) = readMembers fuel cs := by
  have blank : Blank (cs.takeWhile isSpace) := fun _ member => List.mem_takeWhile_imp member
  have split : cs.takeWhile isSpace ++ skipSpace cs = cs := List.takeWhile_append_dropWhile
  rw [← readMembers_append blank, split]

/-- What is joined begins with the first piece. -/
theorem exists_joinWith_cons (sep : Char) (piece : List Char) (pieces : List (List Char)) :
    ∃ more, Text.joinWith sep (piece :: pieces) = piece ++ more := by
  cases pieces with
  | nil => exact ⟨[], (List.append_nil piece).symm⟩
  | cons next pieces => exact ⟨_, rfl⟩

theorem readValue_array {item : Item} {items : List Item} (lead : Blank item.lead)
    (spells : Spells item.value item.text) (rest : List Char) :
    let cs := Text.joinWith ',' ((item :: items).map Item.chars) ++ rest
    readValue (fuel + 1) ('[' :: cs) = (array (readItems fuel cs).1, (readItems fuel cs).2) := by
  intro cs
  obtain ⟨c, more, start, other, open'⟩ := spells.first
  have first : ∃ after, skipSpace cs = c :: after := by
    obtain ⟨more', joined⟩ := exists_joinWith_cons ',' item.chars (items.map Item.chars)
    refine ⟨more ++ (more' ++ rest), ?_⟩
    have whole : cs = item.lead ++ c :: (more ++ (more' ++ rest)) := by
      rw [← List.cons_append, ← start, ← List.append_assoc, ← List.append_assoc]
      exact congrArg (· ++ rest) joined
    rw [whole, skipSpace_append lead, skipSpace_cons other]
  obtain ⟨after, first⟩ := first
  rw [← readItems_skipSpace, readValue, skipSpace_cons (by decide)]
  simp only [first]
  split
  · rename_i same
    exact absurd (List.cons.inj same).1 open'
  · rfl

theorem readValue_object {m : Member} {members : List Member} (lead : Blank m.lead)
    (rest : List Char) :
    let cs := Text.joinWith ',' ((m :: members).map Member.chars) ++ rest
    readValue (fuel + 1) ('\x7b' :: cs) = (object (readMembers fuel cs).1, (readMembers fuel cs).2) := by
  intro cs
  have first : ∃ after, skipSpace cs = '"' :: after := by
    obtain ⟨more, joined⟩ := exists_joinWith_cons ',' m.chars (members.map Member.chars)
    have whole : cs = m.lead ++ ('"' :: (m.key.flatMap escape ++ ['"']) ++ ':' :: m.item.chars ++
        (more ++ rest)) := by
      rw [← List.append_assoc, ← List.append_assoc]
      exact congrArg (· ++ rest) joined
    rw [whole, skipSpace_append lead]
    exact ⟨_, skipSpace_cons (by decide) _⟩
  obtain ⟨after, first⟩ := first
  rw [← readMembers_skipSpace, readValue, skipSpace_cons (by decide)]
  simp only [first]
  rfl

theorem reads_array {items : List Item} {trail : List Char} (blank : Blank trail)
    (leads : ∀ i ∈ items, Blank i.lead) (spells : ∀ i ∈ items, Spells i.value i.text)
    (each : ∀ i ∈ items, Reads i.value i.text) :
    Reads (array (items.map Item.value))
      ('[' :: Text.joinWith ',' (items.map Item.chars) ++ trail ++ [']']) := by
  refine reads_of_step (by simp) fun fuel rest _ enough => ?_
  have whole : '[' :: Text.joinWith ',' (items.map Item.chars) ++ trail ++ [']'] ++ rest =
      '[' :: (Text.joinWith ',' (items.map Item.chars) ++ (trail ++ ']' :: rest)) := by simp
  rw [whole]
  cases items with
  | nil =>
      have empty : Text.joinWith ',' (([] : List Item).map Item.chars) ++ (trail ++ ']' :: rest) =
          trail ++ ']' :: rest := rfl
      rw [empty, readValue, skipSpace_cons (by decide)]
      simp only [skipSpace_trail blank (by decide : isSpace ']' = false)]
      rfl
  | cons item items =>
      simp only [List.length_append, List.length_cons] at enough
      rw [readValue_array (leads item List.mem_cons_self) (spells item List.mem_cons_self),
        readItems_written blank leads each (List.cons_ne_nil _ _) rest (by omega)]

theorem reads_object {members : List Member} {trail : List Char} (blank : Blank trail)
    (leads : ∀ m ∈ members, Blank m.lead ∧ Blank m.item.lead)
    (each : ∀ m ∈ members, Reads m.item.value m.item.text) :
    Reads (object (members.map fun m => (m.key, m.item.value)))
      ('\x7b' :: Text.joinWith ',' (members.map Member.chars) ++ trail ++ ['\x7d']) := by
  refine reads_of_step (by simp) fun fuel rest _ enough => ?_
  have whole : '\x7b' :: Text.joinWith ',' (members.map Member.chars) ++ trail ++ ['\x7d'] ++ rest =
      '\x7b' :: (Text.joinWith ',' (members.map Member.chars) ++ (trail ++ '\x7d' :: rest)) := by simp
  rw [whole]
  cases members with
  | nil =>
      have empty : Text.joinWith ',' (([] : List Member).map Member.chars) ++ (trail ++ '\x7d' :: rest) =
          trail ++ '\x7d' :: rest := rfl
      rw [empty, readValue, skipSpace_cons (by decide)]
      simp only [skipSpace_trail blank (by decide : isSpace '\x7d' = false)]
      rfl
  | cons m members =>
      simp only [List.length_append, List.length_cons] at enough
      rw [readValue_object (leads m List.mem_cons_self).1,
        readMembers_written blank leads each (List.cons_ne_nil _ _) rest (by omega)]

/-- A text of a value is read as that value. -/
theorem Spells.reads (spells : Spells j text) : Reads j text := by
  induction spells with
  | null => exact reads_of_step (by decide) fun fuel rest _ _ => rfl
  | true => exact reads_of_step (by decide) fun fuel rest _ _ => rfl
  | false => exact reads_of_step (by decide) fun fuel rest _ _ => rfl
  | natural n => exact reads_natural n
  | string s => exact reads_string s
  | array items trail blank leads each ih => exact reads_array blank leads each ih
  | object members trail blank leads each ih => exact reads_object blank leads ih

/-- A text that spells a value, and has only blanks after it, is read as that value and nothing else. -/
theorem read_of_spells {trail : List Char} (spells : Spells j text) (blank : Blank trail) :
    read (text ++ trail) = (j, true) := by
  have ends : Ends trail := by
    rw [← List.append_nil trail]
    exact .append blank nofun
  have gone : skipSpace trail = [] := by
    have skipped := skipSpace_append blank []
    rwa [List.append_nil] at skipped
  rw [read, spells.reads _ _ ends (by rw [List.length_append]; omega)]
  simp [gone]

/-! ## The two layouts -/

/-- Whether a value has no mark of a fault in it, and natural numbers only. -/
inductive Plain : Json → Prop
  | null : Plain null
  | bool (value : Bool) : Plain (bool value)
  | natural (n : Nat) : Plain (ofNat n)
  | string (s : List Char) : Plain (string s)
  | array (items : List Json) (each : ∀ j ∈ items, Plain j) : Plain (array items)
  | object (members : List (List Char × Json)) (each : ∀ m ∈ members, Plain m.2) :
      Plain (object members)

theorem Spells.array_map {items : List Json} {lead trail : List Char} {write : Json → List Char}
    (blank : Blank lead) (blank' : Blank trail) (each : ∀ j ∈ items, Spells j (write j)) :
    Spells (.array items)
      ('[' :: Text.joinWith ',' (items.map fun j => lead ++ write j) ++ trail ++ [']']) := by
  have spelled := Spells.array (items.map fun j => ⟨j, lead, write j⟩) trail blank'
    (List.forall_mem_map.mpr fun _ _ => blank) (List.forall_mem_map.mpr each)
  rw [List.map_map, List.map_map] at spelled
  simpa only [Function.comp_def, Item.chars, List.map_id'] using spelled

theorem Spells.object_map {members : List (List Char × Json)} {lead gap trail : List Char}
    {write : Json → List Char} (blank : Blank lead) (blank' : Blank gap) (blank'' : Blank trail)
    (each : ∀ m ∈ members, Spells m.2 (write m.2)) :
    Spells (.object members)
      ('\x7b' :: Text.joinWith ',' (members.map fun m =>
        lead ++ (writeString m.1 ++ ':' :: (gap ++ write m.2))) ++ trail ++ ['\x7d']) := by
  have spelled := Spells.object (members.map fun m => ⟨lead, m.1, m.2, gap, write m.2⟩) trail blank''
    (List.forall_mem_map.mpr fun _ _ => ⟨blank, blank'⟩) (List.forall_mem_map.mpr each)
  rw [List.map_map, List.map_map] at spelled
  simpa only [Function.comp_def, Member.chars, Item.chars, List.map_id'] using spelled

/-- A list that is written with a comma and blanks between its elements is a join, where the blanks
belong to the elements. -/
theorem append_eq_joinWith {α : Type} {list : List α → List Char} {write : α → List Char}
    {lead : List Char} (one : ∀ x, list [x] = write x)
    (more : ∀ x y xs, list (x :: y :: xs) = write x ++ ',' :: (lead ++ list (y :: xs)))
    {xs : List α} (inhabited : xs ≠ []) :
    lead ++ list xs = Text.joinWith ',' (xs.map fun x => lead ++ write x) := by
  induction xs with
  | nil => exact absurd rfl inhabited
  | cons x xs ih =>
      cases xs with
      | nil =>
          rw [one]
          rfl
      | cons y xs =>
          rw [more, ih (List.cons_ne_nil _ _), ← List.append_assoc]
          rfl

theorem compactItems_eq {items : List Json} (inhabited : items ≠ []) :
    [] ++ compactItems items = Text.joinWith ',' (items.map fun j => [] ++ j.compact) :=
  append_eq_joinWith (fun _ => rfl) (fun _ _ _ => rfl) inhabited

theorem compactMembers_eq {members : List (List Char × Json)} (inhabited : members ≠ []) :
    [] ++ compactMembers members = Text.joinWith ',' (members.map fun m =>
      [] ++ (writeString m.1 ++ ':' :: ([] ++ m.2.compact))) :=
  append_eq_joinWith (fun _ => rfl) (fun _ _ _ => by simp [compactMembers]) inhabited

theorem indentedItems_eq {items : List Json} (inhabited : items ≠ []) (depth : Nat) :
    newline depth ++ indentedItems depth items =
      Text.joinWith ',' (items.map fun j => newline depth ++ j.indented depth) :=
  append_eq_joinWith (fun _ => rfl) (fun _ _ _ => List.append_assoc _ _ _) inhabited

theorem indentedMembers_eq {members : List (List Char × Json)} (inhabited : members ≠ []) (depth : Nat) :
    newline depth ++ indentedMembers depth members = Text.joinWith ',' (members.map fun m =>
      newline depth ++ (writeString m.1 ++ ':' :: ([' '] ++ m.2.indented depth))) :=
  append_eq_joinWith (fun _ => rfl) (fun _ _ _ => by simp [indentedMembers]) inhabited

theorem blank_nil : Blank [] :=
  nofun

theorem blank_newline (depth : Nat) : Blank (newline depth) := by
  intro c member
  rcases List.mem_cons.mp member with rfl | blank
  · rfl
  · rw [List.eq_of_mem_replicate blank]
    rfl

namespace Plain

theorem spells_compact (plain : Plain j) : Spells j j.compact := by
  induction plain with
  | null => exact .null
  | bool value =>
      cases value with
      | true => exact .true
      | false => exact .false
  | natural n => exact .natural n
  | string s => exact .string s
  | array items each ih =>
      cases items with
      | nil => exact .array [] [] nofun nofun nofun
      | cons item items =>
          have spelled := Spells.array_map blank_nil blank_nil ih
          rw [← compactItems_eq (List.cons_ne_nil item items), List.append_nil] at spelled
          exact spelled
  | object members each ih =>
      cases members with
      | nil => exact .object [] [] nofun nofun nofun
      | cons m members =>
          have spelled := Spells.object_map blank_nil blank_nil blank_nil ih
          rw [← compactMembers_eq (List.cons_ne_nil m members), List.append_nil] at spelled
          exact spelled

theorem spells_indented (plain : Plain j) (depth : Nat) : Spells j (j.indented depth) := by
  induction plain generalizing depth with
  | null => exact .null
  | bool value =>
      cases value with
      | true => exact .true
      | false => exact .false
  | natural n => exact .natural n
  | string s => exact .string s
  | array items each ih =>
      cases items with
      | nil => exact .array [] [] nofun nofun nofun
      | cons item items =>
          have spelled := Spells.array_map (blank_newline (depth + 1)) (blank_newline depth)
            fun j member => ih j member (depth + 1)
          rwa [← indentedItems_eq (List.cons_ne_nil item items)] at spelled
  | object members each ih =>
      cases members with
      | nil => exact .object [] [] nofun nofun nofun
      | cons m members =>
          have space : Blank [' '] := by simp [Blank, isSpace]
          have spelled := Spells.object_map (blank_newline (depth + 1)) space (blank_newline depth)
            fun m member => ih m member (depth + 1)
          rwa [← indentedMembers_eq (List.cons_ne_nil m members)] at spelled

end Plain

/-- A plain value that was written on one line is read back. -/
theorem read_compact (plain : Plain j) : read j.compact = (j, true) := by
  have read := read_of_spells plain.spells_compact blank_nil
  rwa [List.append_nil] at read

/-- A plain value that was written on several lines, the last of them ended, is read back. -/
theorem read_indented (plain : Plain j) : read (j.indented 0 ++ ['\n']) = (j, true) :=
  read_of_spells (plain.spells_indented 0) (blank_newline 0)

end ScopeLint.Json
