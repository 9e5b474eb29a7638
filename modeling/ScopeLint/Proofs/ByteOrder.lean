import Mathlib.Data.List.Basic
import ScopeLint.Text.Bytes

/-!
# The order of texts by their bytes

Texts are compared by their code points. The bytes of their UTF-8 forms give the same order: the form of a
character with a lower code point is lower at a byte that both forms have, whatever follows the two. The
leading byte tells how long a form is, and the other bytes hold six bits each, the highest first.
-/

namespace ScopeLint

/-- Lists that are compared item by item are in lexicographic order. -/
theorem compare_map_eq_lt_iff {α β : Type} [Ord β] {f : α → β} {before : α → α → Prop}
    (equal : ∀ x y, compare (f x) (f y) = .eq ↔ x = y)
    (less : ∀ x y, compare (f x) (f y) = .lt ↔ before x y) (xs ys : List α) :
    compare (xs.map f) (ys.map f) = .lt ↔ List.Lex before xs ys := by
  induction xs generalizing ys with
  | nil => cases ys <;> simp
  | cons x xs ih =>
      cases ys with
      | nil => simp
      | cons y ys =>
          rw [List.map_cons, List.map_cons, List.compare_cons_cons, Ordering.then_eq_lt, equal, less, ih,
            List.cons_lex_cons_iff]

namespace Text

variable {c d : Char} {s t : List Char} {v w : Nat}

/-- The bytes of a text in UTF-8. -/
def utf8 (cs : List Char) : List UInt8 :=
  cs.flatMap String.utf8EncodeChar

theorem utf8_cons (c : Char) (cs : List Char) : utf8 (c :: cs) = String.utf8EncodeChar c ++ utf8 cs :=
  List.flatMap_cons

theorem byte_cons_lt_iff {xs ys : List UInt8} (hv : v < 256) (hw : w < 256) :
    UInt8.ofNat v :: xs < UInt8.ofNat w :: ys ↔ v < w ∨ v = w ∧ xs < ys := by
  rw [List.cons_lt_cons_iff, UInt8.ofNat_lt_iff_lt hv hw, ← UInt8.toNat_inj, UInt8.toNat_ofNat_of_lt' hv,
    UInt8.toNat_ofNat_of_lt' hw]

/-- A lower number has lower digits, here in groups of six bits. -/
theorem digits_lt (less : v < w) : v / 262144 < w / 262144 ∨ v / 262144 = w / 262144 ∧
    (v / 4096 % 64 < w / 4096 % 64 ∨ v / 4096 % 64 = w / 4096 % 64 ∧
      (v / 64 % 64 < w / 64 % 64 ∨ v / 64 % 64 = w / 64 % 64 ∧ v % 64 < w % 64)) := by
  have last : v / 64 < w / 64 ∨ v / 64 = w / 64 ∧ v % 64 < w % 64 := by omega
  have third : v / 64 ≤ w / 64 →
      v / 4096 < w / 4096 ∨ v / 4096 = w / 4096 ∧ v / 64 % 64 ≤ w / 64 % 64 := by omega
  have second : v / 4096 < w / 4096 →
      v / 262144 < w / 262144 ∨ v / 262144 = w / 262144 ∧ v / 4096 % 64 < w / 4096 % 64 := by omega
  omega

/-- The form of a lower character is lower, whatever follows. -/
theorem utf8EncodeChar_append_lt (less : c.toNat < d.toNat) (xs ys : List UInt8) :
    String.utf8EncodeChar c ++ xs < String.utf8EncodeChar d ++ ys := by
  have bound : d.val.toNat < 0x110000 := by
    have valid := d.valid
    simp only [UInt32.isValidChar, Nat.isValidChar] at valid
    omega
  have less : c.val.toNat < d.val.toNat := less
  simp only [String.utf8EncodeChar]
  generalize c.val.toNat = v at *
  generalize d.val.toNat = w at *
  by_cases long : 65535 < v
  · -- two forms of four bytes, whose leading bytes have room for all bits of a digit
    have lead : v / 262144 % 8 = v / 262144 := by omega
    have lead' : w / 262144 % 8 = w / 262144 := by omega
    have digits := digits_lt less
    simp (disch := omega) only [if_neg, List.cons_append, List.nil_append, byte_cons_lt_iff,
      lead, lead']
    omega
  · repeat' split
    all_goals
      simp (disch := omega) only [List.cons_append, List.nil_append, byte_cons_lt_iff]
      omega

/-- A text that is lower by its code points is lower by its bytes. -/
theorem utf8_lt_of_lex (lower : List.Lex (fun c d => c.toNat < d.toNat) s t) : utf8 s < utf8 t := by
  induction lower with
  | @nil d t =>
      obtain ⟨byte, bytes, form⟩ := List.exists_cons_of_ne_nil (String.utf8EncodeChar_ne_nil (c := d))
      rw [utf8_cons, form]
      exact List.nil_lt_cons byte _
  | @rel c s d t less =>
      rw [utf8_cons, utf8_cons]
      exact utf8EncodeChar_append_lt less _ _
  | @cons c s t _ ih =>
      rw [utf8_cons, utf8_cons]
      exact List.append_left_lt ih

theorem compare_codes_eq_iff : compare (s.map Char.toNat) (t.map Char.toNat) = .eq ↔ s = t := by
  rw [Std.compare_eq_iff_eq]
  exact (List.map_injective_iff.mpr fun _ _ => Char.toNat_inj.mp).eq_iff

theorem utf8_lt_of_compare (lower : compare (s.map Char.toNat) (t.map Char.toNat) = .lt) :
    utf8 s < utf8 t := by
  apply utf8_lt_of_lex
  refine (compare_map_eq_lt_iff (fun c d => ?_) (fun c d => Nat.compare_eq_lt) s t).mp lower
  rw [Nat.compare_eq_eq, Char.toNat_inj]

/-- Comparing texts by their code points is comparing them by their bytes. -/
theorem compare_codes_lt_iff :
    compare (s.map Char.toNat) (t.map Char.toNat) = .lt ↔ utf8 s < utf8 t := by
  refine ⟨utf8_lt_of_compare, fun lower => ?_⟩
  cases result : compare (s.map Char.toNat) (t.map Char.toNat) with
  | lt => rfl
  | eq =>
      rw [compare_codes_eq_iff.mp result] at lower
      exact absurd lower (List.lt_irrefl _)
  | gt =>
      have higher : utf8 t < utf8 s := utf8_lt_of_compare (Std.OrientedCmp.gt_iff_lt.mp result)
      exact absurd higher (List.lt_asymm lower)

theorem compare_codes_isLE_iff :
    (compare (s.map Char.toNat) (t.map Char.toNat)).isLE ↔ utf8 s ≤ utf8 t := by
  rw [Ordering.isLE_iff_ne_gt, Std.OrientedCmp.gt_iff_lt, compare_codes_lt_iff, List.not_lt]

end Text

end ScopeLint
