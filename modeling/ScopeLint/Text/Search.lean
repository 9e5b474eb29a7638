/-!
# Searching a text for a word

Occurrences are taken from the left and do not overlap. A word is never empty where it is searched
for repeatedly.
-/

namespace ScopeLint.Text

/-- What follows `word` at the start of a text. -/
def stripPrefix? : (word : List Char) → List Char → Option (List Char)
  | [], cs => some cs
  | _ :: _, [] => none
  | w :: ws, c :: cs => if w = c then stripPrefix? ws cs else none

theorem stripPrefix?_eq_some_iff {word cs rest : List Char} :
    stripPrefix? word cs = some rest ↔ cs = word ++ rest := by
  induction word generalizing cs with
  | nil => simp [stripPrefix?]
  | cons w ws ih =>
      cases cs with
      | nil => simp [stripPrefix?]
      | cons c cs =>
          by_cases h : w = c
          · simp [stripPrefix?, h, ih]
          · simp [stripPrefix?, h, Ne.symm h]

@[simp] theorem stripPrefix?_append (word rest : List Char) :
    stripPrefix? word (word ++ rest) = some rest :=
  stripPrefix?_eq_some_iff.mpr rfl

/-- Cut a text at the first occurrence of `word`: what stands before it and what follows it. -/
def cutAt? (word : List Char) : List Char → Option (List Char × List Char)
  | [] => (stripPrefix? word []).map ([], ·)
  | c :: cs =>
      match stripPrefix? word (c :: cs) with
      | some rest => some ([], rest)
      | none => (cutAt? word cs).map fun cut => (c :: cut.1, cut.2)

/-- Whether `word` occurs in a text. -/
def contains (word cs : List Char) : Bool :=
  (cutAt? word cs).isSome

/-- The texts that follow the occurrences of a word, where the first `skip` characters
belong to an occurrence already taken. -/
def followersFrom (word : List Char) : (skip : Nat) → List Char → List (List Char)
  | _, [] => []
  | skip + 1, _ :: cs => followersFrom word skip cs
  | 0, c :: cs =>
      match stripPrefix? word (c :: cs) with
      | some rest => rest :: followersFrom word (word.length - 1) cs
      | none => followersFrom word 0 cs

/-- The texts that follow each occurrence of `word`. -/
def followers (word cs : List Char) : List (List Char) :=
  followersFrom word 0 cs

/-- Delete the occurrences of a word, where the first `skip` characters belong to one. -/
def deleteFrom (word : List Char) : (skip : Nat) → List Char → List Char
  | _, [] => []
  | skip + 1, _ :: cs => deleteFrom word skip cs
  | 0, c :: cs =>
      match stripPrefix? word (c :: cs) with
      | some _ => deleteFrom word (word.length - 1) cs
      | none => c :: deleteFrom word 0 cs

/-- Delete every occurrence of `word`. -/
def delete (word cs : List Char) : List Char :=
  deleteFrom word 0 cs

/-- Split a text at a character; the pieces may be empty and there is always one. -/
def splitAt (sep : Char) : List Char → List (List Char)
  | [] => [[]]
  | c :: cs =>
      if c = sep then [] :: splitAt sep cs
      else
        match splitAt sep cs with
        | [] => [[c]]
        | piece :: pieces => (c :: piece) :: pieces

/-- Join pieces with a character between them. -/
def joinWith (sep : Char) : List (List Char) → List Char
  | [] => []
  | [piece] => piece
  | piece :: next :: pieces => piece ++ sep :: joinWith sep (next :: pieces)

theorem splitAt_ne_nil (sep : Char) (cs : List Char) : splitAt sep cs ≠ [] := by
  cases cs with
  | nil => simp [splitAt]
  | cons c cs => simp only [splitAt]; split <;> (try split) <;> simp

@[simp] theorem joinWith_splitAt (sep : Char) (cs : List Char) :
    joinWith sep (splitAt sep cs) = cs := by
  induction cs with
  | nil => rfl
  | cons c cs ih =>
      have hne := splitAt_ne_nil sep cs
      simp only [splitAt]
      match h : splitAt sep cs with
      | [] => exact absurd h hne
      | [piece] =>
          rw [h] at ih
          simp only [joinWith] at ih
          split <;> simp_all [joinWith]
      | piece :: next :: pieces =>
          rw [h] at ih
          simp only [joinWith] at ih
          split <;> simp_all [joinWith]

end ScopeLint.Text
