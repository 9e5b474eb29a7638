import Mathlib.Data.List.TakeDrop
import Mathlib.Data.List.TakeWhile
import ScopeLint.Json.Reader

/-!
# Reading the literals of JSON

Natural numbers and strings are read back from the form in which they are written, whatever follows, as
long as it does not go on with the number. Only some characters are written escaped, and every one of
them is read from its own form alone.
-/

namespace ScopeLint

namespace Text

theorem natOfDigits_toDigits (n : Nat) : natOfDigits (Nat.toDigits 10 n) = n := by
  have read := Nat.ofDigitChars_ten_toDigits (n := n)
  rw [Nat.ofDigitChars_eq_foldl] at read
  simpa only [natOfDigits, Nat.mul_comm] using read

/-- The digits of a number do not begin with zero, unless the number is zero. -/
theorem head?_toDigits_ne {n : Nat} (positive : 0 < n) : (Nat.toDigits 10 n).head? ≠ some '0' := by
  induction n using Nat.strongRecOn with
  | ind n ih =>
      by_cases small : n < 10
      · rw [Nat.toDigits_of_lt_base small]
        have digits : ∀ m < 10, 0 < m → [m.digitChar].head? ≠ some '0' := by decide
        exact digits n small positive
      · rw [Nat.toDigits_of_base_le (by omega) (by omega)]
        obtain ⟨digit, digits, split⟩ :=
          List.exists_cons_of_ne_nil (Nat.toDigits_ne_nil (n := n / 10) (b := 10))
        have first := ih (n / 10) (by omega) (by omega)
        rw [split] at first ⊢
        exact first

theorem toDigits_ne_zero_cons (n : Nat) (digit : Char) (digits : List Char) :
    Nat.toDigits 10 n ≠ '0' :: digit :: digits := by
  intro split
  rcases Nat.eq_zero_or_pos n with rfl | positive
  · rw [Nat.toDigits_zero] at split
    cases split
  · exact head?_toDigits_ne positive (by rw [split]; rfl)

end Text

namespace Json

variable {cs rest left text : List Char} {fuel : Nat} {j : Json}

/-! ## Blanks and what follows a value -/

def Blank (cs : List Char) : Prop :=
  ∀ c ∈ cs, isSpace c

/-- Whether a number ends where the given text follows it. -/
def Ends (rest : List Char) : Prop :=
  ∀ c ∈ rest.head?, c.isDigit = false ∧ c ≠ '.' ∧ c ≠ 'e' ∧ c ≠ 'E'

theorem skipSpace_append (blank : Blank left) (cs : List Char) : skipSpace (left ++ cs) = skipSpace cs :=
  List.dropWhile_append_of_pos blank

theorem skipSpace_cons {c : Char} (other : isSpace c = false) (cs : List Char) :
    skipSpace (c :: cs) = c :: cs :=
  List.dropWhile_cons_of_neg (by simp [other])

theorem Ends.cons {c : Char} (digit : c.isDigit = false) (point : c ≠ '.') (small : c ≠ 'e')
    (capital : c ≠ 'E') (rest : List Char) : Ends (c :: rest) := by
  rintro _ ⟨⟩
  exact ⟨digit, point, small, capital⟩

theorem Ends.append (blank : Blank left) (ends : Ends rest) : Ends (left ++ rest) := by
  cases left with
  | nil => exact ends
  | cons c left =>
      have space : isSpace c := blank c List.mem_cons_self
      simp only [isSpace, Bool.or_eq_true, decide_eq_true_eq] at space
      rcases space with ((rfl | rfl) | rfl) | rfl <;>
        exact .cons (by decide) (by decide) (by decide) (by decide) _

/-! ## Numbers -/

theorem span_digits (n : Nat) (ends : Ends rest) :
    (Nat.toDigits 10 n ++ rest).span Char.isDigit = (Nat.toDigits 10 n, rest) := by
  have digits : ∀ c ∈ Nat.toDigits 10 n, c.isDigit :=
    fun c member => Nat.isDigit_of_mem_toDigits (by decide) (by decide) member
  rw [List.span_eq_takeWhile_dropWhile, List.takeWhile_append_of_pos digits,
    List.dropWhile_append_of_pos digits]
  cases rest with
  | nil => simp
  | cons c rest => simp [(ends c rfl).1]

theorem readFraction_of_ends (ends : Ends rest) : readFraction rest = some ([], rest) := by
  unfold readFraction
  split
  · exact absurd rfl (ends '.' rfl).2.1
  · rfl

theorem readExponent_of_ends (ends : Ends rest) : readExponent rest = some (none, rest) := by
  cases rest with
  | nil => rfl
  | cons c rest =>
      obtain ⟨_, _, small, capital⟩ := ends c rfl
      unfold readExponent
      exact if_neg (not_or.mpr ⟨small, capital⟩)

theorem readUnsigned_toDigits (n : Nat) (ends : Ends rest) :
    readUnsigned false (Nat.toDigits 10 n ++ rest) = some (.natural n, rest) := by
  rw [readUnsigned, span_digits n ends]
  split
  · rename_i same
    exact absurd (Prod.mk.inj same).1 Nat.toDigits_ne_nil
  · rename_i same
    exact absurd (Prod.mk.inj same).1 (Text.toDigits_ne_zero_cons n _ _)
  · rename_i same
    obtain ⟨rfl, rfl⟩ := Prod.mk.inj same
    simp [readFraction_of_ends ends, readExponent_of_ends ends, Text.natOfDigits_toDigits]

theorem exists_digit (n : Nat) :
    ∃ digit digits, Nat.toDigits 10 n = digit :: digits ∧ digit.isDigit := by
  obtain ⟨digit, digits, split⟩ := List.exists_cons_of_ne_nil (Nat.toDigits_ne_nil (n := n) (b := 10))
  have member : digit ∈ Nat.toDigits 10 n := split ▸ List.mem_cons_self
  exact ⟨digit, digits, split, Nat.isDigit_of_mem_toDigits (by decide) (by decide) member⟩

theorem readNumber_toDigits (n : Nat) (ends : Ends rest) :
    readNumber (Nat.toDigits 10 n ++ rest) = some (.natural n, rest) := by
  have read := readUnsigned_toDigits n ends
  obtain ⟨digit, digits, split, isDigit⟩ := exists_digit n
  rw [split, List.cons_append] at read ⊢
  unfold readNumber
  split
  · rename_i same
    rw [(List.cons.inj same).1] at isDigit
    cases isDigit
  · exact read

/-! ## Strings -/

/-- The code of a control character is read as its number. -/
theorem hexCode_control : ∀ n < 0x20,
    hexCode n = ['0', '0', (n / 16).digitChar, (n % 16).digitChar] ∧
      Text.hexCode? '0' '0' (n / 16).digitChar (n % 16).digitChar = some n := by
  decide

theorem readString_plain {c : Char} (quote : c ≠ '"') (backslash : c ≠ '\\') (shown : ¬ c.toNat < 0x20)
    (cs : List Char) :
    readString (c :: cs) = (readString cs).map fun read => (read.1.map (c :: ·), read.2) := by
  have step : readPieces (c :: cs) = (readPieces cs).map fun read => (.plain c :: read.1, read.2) := by
    rw [readPieces, if_neg (not_or.mpr ⟨shown, backslash⟩)]
    · exact quote
    · intro a b c d cs isBackslash
      exact absurd isBackslash backslash
    · intro e cs isBackslash
      exact absurd isBackslash backslash
  rw [readString, readString, step]
  cases readPieces cs <;> rfl

theorem readString_escaped {letter c : Char} (known : unescape? letter = some c) (other : letter ≠ 'u')
    (cs : List Char) :
    readString ('\\' :: letter :: cs) =
      (readString cs).map fun read => (read.1.map (c :: ·), read.2) := by
  have step : readPieces ('\\' :: letter :: cs) =
      (readPieces cs).map fun read => (.plain c :: read.1, read.2) := by
    rw [readPieces, known]
    intro a b c d rest isCode
    exact absurd isCode other
  rw [readString, readString, step]
  cases readPieces cs <;> rfl

theorem readString_control {c : Char} (control : c.toNat < 0x20) (cs : List Char) :
    readString ('\\' :: 'u' :: hexCode c.toNat ++ cs) =
      (readString cs).map fun read => (read.1.map (c :: ·), read.2) := by
  obtain ⟨written, read⟩ := hexCode_control c.toNat control
  have high : isHighSurrogate c.toNat = false := by
    simp only [isHighSurrogate, Bool.and_eq_false_iff, decide_eq_false_iff_not]
    omega
  have low : isLowSurrogate c.toNat = false := by
    simp only [isLowSurrogate, Bool.and_eq_false_iff, decide_eq_false_iff_not]
    omega
  have step : readPieces ('\\' :: 'u' :: hexCode c.toNat ++ cs) =
      (readPieces cs).map fun read => (.code c.toNat :: read.1, read.2) := by
    rw [written]
    simp only [List.cons_append, List.nil_append, readPieces, read]
  have joined : ∀ pieces, joinPieces none (.code c.toNat :: pieces) =
      (joinPieces none pieces).map (c :: ·) := by
    intro pieces
    rw [joinPieces, high, low, Char.ofNat_toNat]
    rfl
  rw [readString, readString, step]
  cases readPieces cs with
  | none => rfl
  | some parts => simp [joined]

/-- A character is read back from the form it is written in. -/
theorem readString_escape (c : Char) (cs : List Char) :
    readString (escape c ++ cs) = (readString cs).map fun read => (read.1.map (c :: ·), read.2) := by
  have ofCode : ∀ {n}, c.toNat = n → Char.ofNat n = c := fun same => same ▸ Char.ofNat_toNat c
  unfold escape
  split
  · subst c
    exact readString_escaped (by decide) (by decide) cs
  split
  · subst c
    exact readString_escaped (by decide) (by decide) cs
  split
  · subst c
    exact readString_escaped (by decide) (by decide) cs
  split
  · subst c
    exact readString_escaped (by decide) (by decide) cs
  split
  · subst c
    exact readString_escaped (by decide) (by decide) cs
  split
  · rename_i code
    rw [← ofCode code]
    exact readString_escaped (by decide) (by decide) cs
  split
  · rename_i code
    rw [← ofCode code]
    exact readString_escaped (by decide) (by decide) cs
  split
  · exact readString_control ‹_› cs
  · exact readString_plain ‹_› ‹_› ‹_› cs

theorem readString_written (s rest : List Char) :
    readString (s.flatMap escape ++ '"' :: rest) = some (some s, rest) := by
  induction s with
  | nil => simp [readString, readPieces, joinPieces]
  | cons c s ih =>
      rw [List.flatMap_cons, List.append_assoc, readString_escape, ih]
      rfl

end Json

end ScopeLint
