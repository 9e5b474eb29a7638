import Mathlib.Data.List.DropRight
import ScopeLint.Directive
import ScopeLint.Proofs.ByteOrder
import ScopeLint.Proofs.Searching
import ScopeLint.Syntax.Outline

/-!
# A line number means one line

A node is on the line that is counted by the line feeds before its first byte. A directive is looked for on
a line of the text as a reader sees it, where a final line feed opens no line and a carriage return may
belong to the end of one. The two ways of counting agree: the line with that number is the one between line
feeds that the byte is on.

What is permitted there depends on this line and the one above it alone. A carriage return at the end of a
line is blank, so it makes no difference whether it was taken off.
-/

namespace ScopeLint

namespace Text

variable {cs line above before rest : List Char} {c : Char} {n offset : Nat} {byte : UInt8}

/-! ## Counting line feeds in bytes -/

/-- The number of the line that a byte is on: one more than there are line feeds before it. -/
def lineNumber (cs : List Char) (offset : Nat) : Nat :=
  ((utf8 cs).take offset).count 10 + 1

/-- The bytes of other characters are no line feeds. -/
theorem lineFeed_notMem_encoded (other : c ≠ '\n') : 10 ∉ String.utf8EncodeChar c := by
  have code : c.val.toNat ≠ 10 := fun same => other (Char.toNat_inj.mp same)
  have byte {v : Nat} (small : v < 256) (apart : v ≠ 10) : (10 : UInt8) ≠ UInt8.ofNat v := by
    rw [Ne, ← UInt8.toNat_inj, UInt8.toNat_ofNat_of_lt' small]
    exact Ne.symm apart
  simp only [String.utf8EncodeChar]
  generalize c.val.toNat = v at code
  repeat' split
  all_goals
    simp only [List.mem_cons, List.not_mem_nil, or_false, not_or]
    repeat' apply And.intro
    all_goals exact byte (by omega) (by omega)

theorem count_take_encoded (c : Char) (some : n ≠ 0) :
    ((String.utf8EncodeChar c).take n).count 10 = [c].count '\n' := by
  obtain ⟨n, rfl⟩ := Nat.exists_eq_succ_of_ne_zero some
  by_cases feed : c = '\n'
  · rw [feed]
    have form : String.utf8EncodeChar '\n' = [10] := by decide
    rw [form, List.take_succ_cons, List.take_nil]
    decide
  · have none : 10 ∉ (String.utf8EncodeChar c).take (n + 1) :=
      fun member => lineFeed_notMem_encoded feed (List.mem_of_mem_take member)
    rw [List.count_eq_zero_of_not_mem none, List.count_singleton, if_neg (by simpa using feed)]

/-- The line feeds before an offset are counted in characters and in bytes alike. -/
theorem count_takeBytes (n : Nat) (cs : List Char) :
    (takeBytes n cs).count '\n' = ((utf8 cs).take n).count 10 := by
  induction cs generalizing n with
  | nil => simp [takeBytes, utf8]
  | cons c cs ih =>
      by_cases start : n = 0
      · simp [takeBytes, start]
      · rw [takeBytes, if_neg start, utf8_cons, List.take_append, List.count_append,
          count_take_encoded c start, String.length_utf8EncodeChar, ← ih, ← List.count_append]
        rfl

theorem line_positionAt (cs : List Char) (offset : Nat) :
    (positionAt cs offset).line = lineNumber cs offset := by
  rw [lineNumber, ← count_takeBytes]
  rfl

theorem byteLength_ended (cs : List Char) : byteLength (cs ++ ['\n']) = byteLength cs + 1 := by
  rw [byteLength_append]
  rfl

theorem takeBytes_append (n : Nat) (cs rest : List Char) :
    takeBytes (byteLength cs + n) (cs ++ rest) = cs ++ takeBytes n rest := by
  induction cs with
  | nil => simp
  | cons c cs ih =>
      have wide := c.utf8Size_pos
      rw [List.cons_append, takeBytes, byteLength_cons, if_neg (by omega), Nat.add_assoc,
        Nat.add_sub_cancel_left, ih, List.cons_append]

/-- What starts before the end of a text belongs to the text. -/
theorem takeBytes_append_isPrefix (inside : n ≤ byteLength cs) (rest : List Char) :
    takeBytes n (cs ++ rest) <+: cs := by
  induction cs generalizing n with
  | nil =>
      obtain rfl : n = 0 := Nat.le_zero.mp inside
      cases rest <;> exact List.prefix_refl _
  | cons c cs ih =>
      rw [List.cons_append, takeBytes]
      split
      · exact List.nil_prefix
      · rw [byteLength_cons] at inside
        exact (List.prefix_cons_inj c).mpr (ih (by omega))

/-! ## Reading lines -/

/-- A line without the carriage return that belongs to its end. -/
def withoutReturn (line : List Char) : List Char :=
  (dropReturn line.reverse).reverse

/-- How a line is read, given what follows it: up to a line feed, or to the end of the text. -/
def asRead (line rest : List Char) : List Char :=
  if rest = [] then line else withoutReturn line

theorem withoutReturn_cases (line : List Char) :
    withoutReturn line = line ∨ line = withoutReturn line ++ ['\r'] := by
  rcases List.eq_nil_or_concat' line with rfl | ⟨start, c, rfl⟩
  · exact .inl rfl
  · by_cases isReturn : c = '\r'
    · refine .inr ?_
      rw [isReturn, withoutReturn, List.reverse_concat, dropReturn, List.reverse_reverse]
    · refine .inl ?_
      have kept : dropReturn (c :: start.reverse) = c :: start.reverse := by simp [dropReturn, isReturn]
      rw [withoutReturn, List.reverse_concat, kept, ← List.reverse_concat, List.reverse_reverse]

theorem linesFrom_append (free : '\n' ∉ line) (begun rest : List Char) :
    linesFrom begun (line ++ rest) = linesFrom (line.reverse ++ begun) rest := by
  induction line generalizing begun with
  | nil => rfl
  | cons c line ih =>
      have other : c ≠ '\n' := Ne.symm (List.ne_of_not_mem_cons free)
      rw [List.cons_append, linesFrom, if_neg other, ih (List.not_mem_of_not_mem_cons free),
        List.reverse_cons, List.append_assoc]
      rfl

theorem lines_ended (free : '\n' ∉ line) (rest : List Char) :
    lines (line ++ '\n' :: rest) = withoutReturn line :: lines rest := by
  rw [lines, linesFrom_append free, linesFrom, if_pos rfl, List.append_nil]
  rfl

theorem lines_last (free : '\n' ∉ line) (filled : line ≠ []) : lines line = [line] := by
  have read := linesFrom_append free [] []
  rw [List.append_nil, List.append_nil, linesFrom, if_neg (by simpa using filled),
    List.reverse_reverse] at read
  exact read

/-- A line is read up to the line feed after it, or to the end of the text. -/
theorem exists_lines_eq (free : '\n' ∉ line) (filled : line ≠ []) (ends : ∀ c ∈ rest.head?, c = '\n') :
    ∃ more, lines (line ++ rest) = asRead line rest :: more := by
  cases rest with
  | nil =>
      refine ⟨[], ?_⟩
      rw [List.append_nil, lines_last free filled, asRead, if_pos rfl]
  | cons c more =>
      obtain rfl := ends c rfl
      refine ⟨lines more, ?_⟩
      rw [lines_ended free, asRead, if_neg (List.cons_ne_nil _ _)]

theorem linesFrom_ended (begun lead rest : List Char) :
    linesFrom begun (lead ++ '\n' :: rest) = linesFrom begun (lead ++ ['\n']) ++ lines rest := by
  induction lead generalizing begun with
  | nil => rfl
  | cons c lead ih =>
      rw [List.cons_append, List.cons_append, linesFrom, linesFrom]
      split
      · rw [ih, List.cons_append]
      · exact ih _

theorem length_linesFrom (begun lead : List Char) :
    (linesFrom begun (lead ++ ['\n'])).length = lead.count '\n' + 1 := by
  induction lead generalizing begun with
  | nil => rfl
  | cons c lead ih =>
      rw [List.cons_append, linesFrom]
      split
      · rename_i feed
        rw [List.length_cons, ih, feed, List.count_cons_self]
      · rename_i other
        rw [ih, List.count_cons_of_ne other]

/-- What follows a line feed is read on its own, after as many lines as there were line feeds. -/
theorem exists_lines_append (begins : ∀ c ∈ before.getLast?, c = '\n') (cs : List Char) :
    ∃ earlier, lines (before ++ cs) = earlier ++ lines cs ∧ earlier.length = before.count '\n' := by
  rcases List.eq_nil_or_concat' before with rfl | ⟨lead, c, rfl⟩
  · exact ⟨[], rfl, rfl⟩
  · obtain rfl := begins c List.getLast?_concat
    refine ⟨lines (lead ++ ['\n']), ?_, ?_⟩
    · rw [List.append_assoc]
      exact linesFrom_ended [] lead cs
    · rw [lines, length_linesFrom, List.count_append]
      rfl

/-! ## The line that a byte is on -/

/-- Whether the byte at an offset is on `line`, between two line feeds or an end of the text, with the line
`above` before it unless it is the first one, and `rest` after it. -/
inductive StandsOn (cs : List Char) (offset : Nat) :
    (above : Option (List Char)) → (line rest : List Char) → Prop
  | first {line rest : List Char} (whole : cs = line ++ rest) (free : '\n' ∉ line)
      (ends : ∀ c ∈ rest.head?, c = '\n') (inside : offset < byteLength line) :
      StandsOn cs offset none line rest
  | later {before above line rest : List Char} (whole : cs = before ++ above ++ '\n' :: (line ++ rest))
      (begins : ∀ c ∈ before.getLast?, c = '\n') (apart : '\n' ∉ above) (free : '\n' ∉ line)
      (ends : ∀ c ∈ rest.head?, c = '\n') (reached : byteLength (before ++ above) < offset)
      (inside : offset < byteLength (before ++ above) + 1 + byteLength line) :
      StandsOn cs offset (some above) line rest

theorem filled_of_lt_byteLength (inside : n < byteLength line) : line ≠ [] := by
  rintro rfl
  exact absurd inside (Nat.not_lt_zero n)

theorem lineNumber_append (free : '\n' ∉ line) (inside : n ≤ byteLength line) (before rest : List Char) :
    lineNumber (before ++ (line ++ rest)) (byteLength before + n) = before.count '\n' + 1 := by
  have none : '\n' ∉ takeBytes n (line ++ rest) :=
    fun member => free ((takeBytes_append_isPrefix inside rest).subset member)
  rw [lineNumber, ← count_takeBytes, takeBytes_append, List.count_append,
    List.count_eq_zero_of_not_mem none, Nat.add_zero]

/-- The lines of a text around the one that a byte is on. -/
theorem StandsOn.exists_lines {above : Option (List Char)} (h : StandsOn cs offset above line rest) :
    ∃ earlier more, lines cs = earlier ++ (above.map withoutReturn).toList ++ asRead line rest :: more ∧
      lineNumber cs offset = (earlier ++ (above.map withoutReturn).toList).length + 1 ∧
      (above = none → earlier = []) := by
  cases h with
  | first whole free ends inside =>
      obtain ⟨more, read⟩ := exists_lines_eq free (filled_of_lt_byteLength inside) ends
      refine ⟨[], more, whole ▸ read, ?_, fun _ => rfl⟩
      have number := lineNumber_append free (Nat.le_of_lt inside) [] rest
      rw [byteLength_nil, Nat.zero_add] at number
      rw [whole]
      exact number
  | @later before above line rest whole begins apart free ends reached inside =>
      have filled : line ≠ [] := by
        rintro rfl
        rw [byteLength_nil] at inside
        omega
      obtain ⟨more, read⟩ := exists_lines_eq free filled ends
      obtain ⟨earlier, split, length⟩ := exists_lines_append begins (above ++ '\n' :: (line ++ rest))
      have lead := byteLength_ended (before ++ above)
      -- the line feed after the line above is one of those before the byte
      obtain ⟨n, rfl⟩ : ∃ n, offset = byteLength (before ++ above ++ ['\n']) + n :=
        Nat.exists_eq_add_of_le (by omega)
      refine ⟨earlier, more, ?_, ?_, nofun⟩
      · rw [whole, List.append_assoc, split, lines_ended apart, read, List.append_assoc]
        rfl
      · rw [whole, List.append_cons]
        refine (lineNumber_append free (by omega) _ _).trans ?_
        simp [length, List.count_eq_zero_of_not_mem apart]

/-- A byte that is there belongs to a character. -/
theorem exists_char_of_byte (present : (utf8 cs)[offset]? = some byte) :
    ∃ lead c tail, cs = lead ++ c :: tail ∧ byteLength lead ≤ offset ∧
      offset < byteLength lead + c.utf8Size ∧ byte ∈ String.utf8EncodeChar c := by
  induction cs generalizing offset with
  | nil => cases present
  | cons c cs ih =>
      rw [utf8_cons] at present
      by_cases here : offset < (String.utf8EncodeChar c).length
      · rw [List.getElem?_append_left here] at present
        rw [String.length_utf8EncodeChar] at here
        refine ⟨[], c, cs, rfl, Nat.zero_le _, ?_, List.mem_of_getElem? present⟩
        rwa [byteLength_nil, Nat.zero_add]
      · rw [List.getElem?_append_right (Nat.le_of_not_lt here)] at present
        rw [String.length_utf8EncodeChar] at here present
        obtain ⟨lead, d, tail, rfl, reached, inside, member⟩ := ih present
        refine ⟨c :: lead, d, tail, rfl, ?_, ?_, member⟩ <;> rw [byteLength_cons] <;> omega

/-- A text is split before the last line that it has begun. -/
theorem exists_split_last (cs : List Char) :
    ∃ before last, cs = before ++ last ∧ '\n' ∉ last ∧ ∀ c ∈ before.getLast?, c = '\n' := by
  induction cs using List.reverseRecOn with
  | nil => exact ⟨[], [], rfl, List.not_mem_nil, nofun⟩
  | append_singleton cs c ih =>
      by_cases feed : c = '\n'
      · refine ⟨cs ++ [c], [], (List.append_nil _).symm, List.not_mem_nil, ?_⟩
        rw [List.getLast?_concat]
        rintro _ ⟨⟩
        exact feed
      · obtain ⟨before, last, rfl, free, begins⟩ := ih
        refine ⟨before, last ++ [c], List.append_assoc _ _ _, ?_, begins⟩
        simp [free, Ne.symm feed]

/-- A text is split after the first line that it has. -/
theorem exists_split_first (cs : List Char) :
    ∃ first rest, cs = first ++ rest ∧ '\n' ∉ first ∧ ∀ c ∈ rest.head?, c = '\n' := by
  obtain ⟨before, last, split, free, begins⟩ := exists_split_last cs.reverse
  refine ⟨last.reverse, before.reverse, ?_, by simpa using free, by simpa using begins⟩
  rw [← List.reverse_append, ← split, List.reverse_reverse]

/-- Every byte but a line feed is on a line. -/
theorem exists_standsOn (present : (utf8 cs)[offset]? = some byte) (inLine : byte ≠ 10) :
    ∃ above line rest, StandsOn cs offset above line rest := by
  obtain ⟨lead, c, tail, rfl, reached, inside, member⟩ := exists_char_of_byte present
  have other : c ≠ '\n' := by
    rintro rfl
    exact inLine (List.mem_singleton.mp member)
  -- the line has begun before the character and goes on to the next line feed
  obtain ⟨top, start, rfl, freeStart, begins⟩ := exists_split_last lead
  obtain ⟨finish, rest, rfl, freeFinish, ends⟩ := exists_split_first tail
  have free : '\n' ∉ start ++ c :: finish := by
    simp [freeStart, freeFinish, Ne.symm other]
  have width : byteLength (start ++ c :: finish) =
      byteLength start + (c.utf8Size + byteLength finish) := by
    rw [byteLength_append, byteLength_cons]
  rw [byteLength_append] at reached inside
  rcases List.eq_nil_or_concat' top with rfl | ⟨earlier, d, rfl⟩
  · rw [byteLength_nil] at inside
    exact ⟨none, start ++ c :: finish, rest, .first (by simp) free ends (by omega)⟩
  · obtain rfl := begins d List.getLast?_concat
    obtain ⟨before, above, rfl, apart, begins⟩ := exists_split_last earlier
    have lead := byteLength_ended (before ++ above)
    exact ⟨some above, start ++ c :: finish, rest,
      .later (by simp) begins apart free ends (by omega) (by omega)⟩

end Text

namespace Directive

variable {text line rest rule : List Char} {above : Option (List Char)} {c : Char} {offset : Nat}

/-- A blank at the end of a comment makes no difference. -/
theorem trim_commentBody_concat (blank : Text.isBlank c) (fresh : c ∉ ['*', '/']) (opened : List Char) :
    Text.trim (commentBody (opened ++ [c])) = Text.trim (commentBody opened) := by
  rw [commentBody, Text.cutAt?_concat fresh (List.cons_ne_nil _ _), commentBody]
  cases Text.cutAt? ['*', '/'] opened with
  | none => exact Text.trim_concat_of_isBlank blank opened
  | some cut => rfl

/-- A carriage return at the end of a line makes no difference to the directive on it. -/
theorem ofLine?_return (line : List Char) : ofLine? (line ++ ['\r']) = ofLine? line := by
  have bodies : commentBodies (line ++ ['\r']) =
      (Text.followers ['/', '/'] line ++ Text.followers ['/', '*'] line).map
        (fun opened => commentBody (opened ++ ['\r'])) := by
    rw [commentBodies, Text.followers, Text.followers, Text.followersFrom_concat (by decide) (by simp),
      Text.followersFrom_concat (by decide) (by simp), ← List.map_append, List.map_map]
    rfl
  -- every comment is trimmed before it is read
  rw [ofLine?, ofLine?, bodies, commentBodies, List.findSome?_map, List.findSome?_map]
  congr 2
  funext opened
  simp only [Function.comp_apply, trim_commentBody_concat (by decide : Text.isBlank '\r') (by decide)]

theorem permissionOf_withoutReturn (rule line : List Char) :
    permissionOf rule (some (Text.withoutReturn line)) = permissionOf rule (some line) := by
  rcases Text.withoutReturn_cases line with same | ends
  · rw [same]
  · have read : ofLine? line = ofLine? (Text.withoutReturn line) := by
      rw [ends, ofLine?_return, ← ends]
    simp only [permissionOf, Option.bind_some, read]

theorem permissionOf_asRead (rule line rest : List Char) :
    permissionOf rule (some (Text.asRead line rest)) = permissionOf rule (some line) := by
  rw [Text.asRead]
  split
  · rfl
  · exact permissionOf_withoutReturn rule line

/-- What a line and the one above it say about a rule; the one above is asked first. -/
def permissionOn (rule : List Char) (above : Option (List Char)) (line : List Char) : Permission :=
  if (permissionOf rule above).isAllowed then permissionOf rule above else permissionOf rule (some line)

theorem permission_eq (text : List Char) (number : Nat) (rule : List Char) :
    permission text number rule =
      if (permissionOf rule (lineAt? (Text.lines text) (number - 1))).isAllowed then
        permissionOf rule (lineAt? (Text.lines text) (number - 1))
      else permissionOf rule (lineAt? (Text.lines text) number) := by
  unfold permission
  dsimp only
  cases permissionOf rule (lineAt? (Text.lines text) (number - 1)) <;> rfl

theorem lineAt?_append_cons (earlier : List (List Char)) (line : List Char) (more : List (List Char)) :
    lineAt? (earlier ++ line :: more) (earlier.length + 1) = some line := by
  rw [lineAt?, List.getElem?_append_right (Nat.le_refl _), Nat.sub_self]
  rfl

end Directive

namespace Text.StandsOn

open Directive

variable {text line rest : List Char} {above : Option (List Char)} {offset : Nat}

/-- The line with the number of a byte is the one that the byte is on. -/
theorem lineAt? (h : StandsOn text offset above line rest) :
    lineAt? (lines text) (lineNumber text offset) = some (asRead line rest) := by
  obtain ⟨earlier, more, split, number, _⟩ := h.exists_lines
  rw [split, number]
  exact lineAt?_append_cons _ _ _

/-- The line with the number before it is the one above, if there is one. -/
theorem lineAt?_above (h : StandsOn text offset above line rest) :
    Directive.lineAt? (lines text) (lineNumber text offset - 1) = above.map withoutReturn := by
  obtain ⟨earlier, more, split, number, alone⟩ := h.exists_lines
  rw [split, number, Nat.add_sub_cancel]
  cases above with
  | none =>
      rw [alone rfl]
      rfl
  | some above =>
      rw [Option.map_some, Option.toList_some, List.length_append, List.length_singleton,
        List.append_assoc]
      exact lineAt?_append_cons _ _ _

theorem lineNumber_le (h : StandsOn text offset above line rest) :
    lineNumber text offset ≤ (lines text).length := by
  obtain ⟨earlier, more, split, number, _⟩ := h.exists_lines
  rw [split, List.length_append, List.length_cons, number]
  omega

/-- What is permitted on the line of a byte is what this line and the one above it say. -/
theorem permission (h : StandsOn text offset above line rest) (rule : List Char) :
    permission text (lineNumber text offset) rule = permissionOn rule above line := by
  have aboveRead : permissionOf rule (above.map withoutReturn) = permissionOf rule above := by
    cases above with
    | none => rfl
    | some above => exact permissionOf_withoutReturn rule above
  rw [permission_eq, h.lineAt?, h.lineAt?_above, aboveRead, permissionOf_asRead]
  rfl

end Text.StandsOn

namespace Directive

open Text (StandsOn lineNumber)

/-- The line of a byte that is no line feed. It has the number that a node starting there is given, it is one
of the lines that are read, and the text between line feeds that the byte is on. What is permitted there is
what this line and the one above it say, so in another text with the same two lines it is the same. -/
theorem permission_byLines (text rule : List Char) (offset : Nat) (byte : UInt8)
    (present : (Text.utf8 text)[offset]? = some byte) (inLine : byte ≠ 10) :
    (∀ stop, (Span.ofRange text offset stop).line = lineNumber text offset) ∧
    lineNumber text offset ≤ (Text.lines text).length ∧
    (∃ above line rest, StandsOn text offset above line rest) ∧
    ∀ above line rest, StandsOn text offset above line rest →
      lineAt? (Text.lines text) (lineNumber text offset) = some (Text.asRead line rest) ∧
      permission text (lineNumber text offset) rule = permissionOn rule above line ∧
      ∀ text' offset' rest', StandsOn text' offset' above line rest' →
        permission text' (lineNumber text' offset') rule = permission text (lineNumber text offset) rule := by
  obtain ⟨above, line, rest, stands⟩ := Text.exists_standsOn present inLine
  refine ⟨fun _ => Text.line_positionAt text offset, stands.lineNumber_le, ⟨above, line, rest, stands⟩, ?_⟩
  intro above line rest stands
  refine ⟨stands.lineAt?, stands.permission rule, fun text' offset' rest' stands' => ?_⟩
  rw [stands.permission rule, stands'.permission rule]

/-- A call, a directive and a declaration, with line ends of two signs each. -/
def returnsText : List Char :=
  "é();\r\n// hoist-lint: allow(all)\r\nvar a;\r\n".toList

/-- The directive and the declaration alone, where the last line has no end. -/
def unendedText : List Char :=
  "// hoist-lint: allow(all)\r\nvar a;\r".toList

/-- The declaration is on line 3 of the one text and on line 2 of the other, and is permitted in both. -/
theorem permission_byLines_returns :
    (Text.utf8 returnsText)[34]? = some 118 ∧ lineNumber returnsText 34 = 3 ∧
      lineNumber unendedText 27 = 2 ∧
      lineAt? (Text.lines returnsText) 3 = some "var a;".toList ∧
      lineAt? (Text.lines unendedText) 2 = some "var a;\r".toList ∧
      permission returnsText 3 "vars-on-top".toList = .allowed none ∧
      permission unendedText 2 "vars-on-top".toList = permission returnsText 3 "vars-on-top".toList := by
  let above := "// hoist-lint: allow(all)\r".toList
  let line := "var a;\r".toList
  have whole : returnsText = "é();\r\n".toList ++ above ++ '\n' :: (line ++ ['\n']) := by decide
  have whole' : unendedText = [] ++ above ++ '\n' :: (line ++ []) := by decide
  have stands : StandsOn returnsText 34 (some above) line ['\n'] :=
    .later whole (by simp) (by decide) (by decide) (by simp) (by decide) (by decide)
  have stands' : StandsOn unendedText 27 (some above) line [] :=
    .later whole' (by simp) (by decide) (by decide) (by simp) (by decide) (by decide)
  obtain ⟨_, _, _, onLine⟩ := permission_byLines returnsText "vars-on-top".toList 34 118 (by decide) (by decide)
  obtain ⟨read, heard, elsewhere⟩ := onLine _ _ _ stands
  exact ⟨by decide, by decide, by decide, read, by decide, heard.trans (by decide),
    elsewhere unendedText 27 [] stands'⟩

end Directive

end ScopeLint
