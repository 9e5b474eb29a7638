import ScopeLint.Directive
import ScopeLint.Proofs.Components
import ScopeLint.Proofs.Searching

/-!
# Directives are read as they are written

A directive is written as a mark, a list of names in parentheses and a reason in quotes, in a comment of
either form. Reading undoes the writing. The reason is taken up to its closing quote and may hold anything
but a quote, so addresses, parentheses, commas and blanks in it are kept. In a block comment two slashes
in a row would be taken for the start of a line comment, which is read first.
-/

namespace ScopeLint.Directive

variable {d : Directive} {names : List (List Char)} {name before after : List Char}

/-! ## Writing -/

def writtenReason : Option (List Char) → List Char
  | some reason => ' ' :: ("reason=".toList ++ '"' :: (reason ++ ['"']))
  | none => []

/-- What follows the mark. -/
def writtenBody (d : Directive) : List Char :=
  ' ' :: ("allow(".toList ++ (", ".toList.intercalate d.rules ++ ')' :: writtenReason d.reason))

/-- The text of a directive, without the signs of the comment around it. -/
def written (d : Directive) : List Char :=
  mark ++ d.writtenBody

example : written ⟨["a".toList, "b".toList], some "x".toList⟩ =
    "hoist-lint: allow(a, b) reason=\"x\"".toList := by decide

/-- Whether a directive can be written down so that it can be told where its parts end. -/
structure Writable (d : Directive) : Prop where
  named : d.rules ≠ []
  filled : ∀ name ∈ d.rules, name ≠ []
  trimmed : ∀ name ∈ d.rules, Text.trim name = name
  separate : ∀ name ∈ d.rules, ',' ∉ name ∧ ')' ∉ name
  unquoted : ∀ reason ∈ d.reason, '"' ∉ reason

/-- Whether neither a name nor the reason has the word in it. -/
def Lacks (d : Directive) (word : List Char) : Prop :=
  (∀ name ∈ d.rules, ¬ word <:+: name) ∧ ∀ reason ∈ d.reason, ¬ word <:+: reason

/-! ## Reading the parts -/

theorem isBlank_space : Text.isBlank ' ' := by decide

/-- A blank at the start makes no difference to names that are trimmed. -/
theorem map_trim_splitAt_space (cs : List Char) :
    (Text.splitAt ',' (' ' :: cs)).map Text.trim = (Text.splitAt ',' cs).map Text.trim := by
  obtain ⟨piece, pieces, split, longer⟩ := Text.splitAt_cons_of_ne (by decide : ' ' ≠ ',') cs
  rw [longer, split, List.map_cons, List.map_cons, Text.trim_cons_of_isBlank isBlank_space]

theorem map_trim_splitAt_intercalate (named : names ≠ [])
    (trimmed : ∀ name ∈ names, Text.trim name = name) (separate : ∀ name ∈ names, ',' ∉ name) :
    (Text.splitAt ',' (", ".toList.intercalate names)).map Text.trim = names := by
  induction names with
  | nil => exact absurd rfl named
  | cons name names ih =>
      obtain ⟨here, trimmed⟩ := List.forall_mem_cons.mp trimmed
      obtain ⟨free, separate⟩ := List.forall_mem_cons.mp separate
      cases names with
      | nil => rw [List.intercalate_singleton, Text.splitAt_of_notMem free, List.map_singleton, here]
      | cons next names =>
          have written : ", ".toList.intercalate (name :: next :: names) =
              name ++ ',' :: ' ' :: ", ".toList.intercalate (next :: names) := by
            rw [List.intercalate_cons_cons]
            simp
          rw [written, Text.splitAt_append free, List.map_cons, here, map_trim_splitAt_space,
            ih (List.cons_ne_nil _ _) trimmed separate]

/-- The names are read as they were written, without the blanks after the commas. -/
theorem Writable.parseNames (writable : d.Writable) :
    parseNames (", ".toList.intercalate d.rules) = d.rules := by
  have kept : d.rules.filter (!·.isEmpty) = d.rules := by
    rw [List.filter_eq_self]
    intro name member
    simp [writable.filled name member]
  rw [Directive.parseNames, map_trim_splitAt_intercalate writable.named writable.trimmed
    fun name member => (writable.separate name member).1, kept]

theorem isBlank_quoted_last (start reason : List Char) :
    ∀ c ∈ (start ++ '"' :: (reason ++ ['"'])).getLast?, Text.isBlank c = false := by
  rw [← List.cons_append, ← List.append_assoc, List.getLast?_concat]
  rintro c ⟨⟩
  decide

/-- A directive ends with a parenthesis or a quote. -/
theorem isBlank_last (cs : List Char) (reason : Option (List Char)) :
    ∀ c ∈ (cs ++ ')' :: writtenReason reason).getLast?, Text.isBlank c = false := by
  cases reason with
  | none =>
      intro c last
      obtain rfl : ')' = c := by simpa [writtenReason] using last
      decide
  | some reason =>
      have split : cs ++ ')' :: writtenReason (some reason) =
          cs ++ (')' :: ' ' :: "reason=".toList) ++ '"' :: (reason ++ ['"']) := by
        rw [writtenReason, List.append_assoc, List.cons_append, List.cons_append]
      rw [split]
      exact isBlank_quoted_last _ reason

/-- The reason is read up to the quote that closes it. -/
theorem parseReason?_writtenReason {reason : Option (List Char)} (unquoted : ∀ r ∈ reason, '"' ∉ r) :
    parseReason? (Text.trim (writtenReason reason)) = reason := by
  cases reason with
  | none => decide
  | some reason =>
      have quoted : Text.trim ('"' :: (reason ++ ['"'])) = '"' :: (reason ++ ['"']) := by
        apply Text.trim_eq_self
        · rintro c ⟨⟩
          decide
        · exact isBlank_quoted_last [] reason
      have whole : Text.trim (writtenReason (some reason)) = "reason=".toList ++ '"' :: (reason ++ ['"']) := by
        rw [writtenReason, Text.trim_cons_of_isBlank isBlank_space]
        apply Text.trim_eq_self
        · intro c first
          obtain rfl : 'r' = c := by simpa using first
          decide
        · exact isBlank_quoted_last _ reason
      rw [whole, parseReason?, Text.stripPrefix?_append, Option.bind_some, quoted]
      have opened : Text.stripPrefix? ['"'] ('"' :: (reason ++ ['"'])) = some (reason ++ ['"']) :=
        Text.stripPrefix?_append ['"'] _
      rw [opened, Option.bind_some, Text.cutAt?_singleton (unquoted reason rfl)]
      rfl

/-- A list of names begins as its first name does. -/
theorem head?_intercalate (named : names ≠ []) (filled : ∀ name ∈ names, name ≠ []) (rest : List Char) :
    (", ".toList.intercalate names ++ rest).head? = (names.head named).head? := by
  obtain ⟨name, names, rfl⟩ := List.exists_cons_of_ne_nil named
  obtain ⟨c, cs, rfl⟩ := List.exists_cons_of_ne_nil (filled name List.mem_cons_self)
  cases names with
  | nil => rw [List.intercalate_singleton]; rfl
  | cons next names => rw [List.intercalate_cons_cons]; rfl

theorem notMem_intercalate {c : Char} (other : c ∉ ", ".toList) (free : ∀ name ∈ names, c ∉ name) :
    c ∉ ", ".toList.intercalate names := by
  induction names with
  | nil => exact List.not_mem_nil
  | cons name names ih =>
      obtain ⟨here, later⟩ := List.forall_mem_cons.mp free
      cases names with
      | nil => rwa [List.intercalate_singleton]
      | cons next names =>
          rw [List.intercalate_cons_cons, List.mem_append, List.mem_append, not_or, not_or]
          exact ⟨⟨here, other⟩, ih later⟩

/-- What follows the mark is read back. -/
theorem Writable.parseBody? (writable : d.Writable) : parseBody? d.writtenBody = some d := by
  let joined := ", ".toList.intercalate d.rules
  let tail := ')' :: writtenReason d.reason
  have outer : Text.trim d.writtenBody = "allow(".toList ++ (joined ++ tail) := by
    rw [writtenBody, Text.trim_cons_of_isBlank isBlank_space]
    apply Text.trim_eq_self
    · intro c first
      obtain rfl : 'a' = c := by simpa using first
      decide
    · rw [← List.append_assoc]
      exact isBlank_last _ _
  have inner : Text.trim (joined ++ tail) = joined ++ tail := by
    apply Text.trim_eq_self
    · rw [head?_intercalate writable.named writable.filled]
      exact Text.isBlank_head_of_trim (writable.trimmed _ (List.head_mem writable.named))
    · exact isBlank_last _ _
  have cut : Text.cutAt? [')'] (joined ++ tail) = some (joined, writtenReason d.reason) := by
    apply Text.cutAt?_singleton
    exact notMem_intercalate (by decide) fun name member => (writable.separate name member).2
  rw [Directive.parseBody?, outer, Text.stripPrefix?_append, Option.bind_some, inner, cut,
    Option.bind_some]
  simp only [joined, writable.parseNames, parseReason?_writtenReason writable.unquoted]
  simp [writable.named]

/-! ## Finding the comment -/

variable {c : Char} {line body : List Char} {more : List (List Char)}

theorem not_infix_of_notMem (free : '/' ∉ line) : ¬ [c, '/'] <:+: line :=
  fun found => free (found.subset (List.mem_cons_of_mem _ List.mem_cons_self))

/-- The signs of a directive are in no word that opens or closes a comment. -/
theorem sign_apart (sign : c ∈ ['*', '/']) : ∀ x ∈ ['(', ')', '"', ',', ' '], x ≠ c ∧ x ≠ '/' := by
  simp only [List.mem_cons, List.not_mem_nil, or_false] at sign
  obtain rfl | rfl := sign <;> simp

theorem not_infix_intercalate (sign : c ∈ ['*', '/']) (lacks : ∀ name ∈ names, ¬ [c, '/'] <:+: name) :
    ¬ [c, '/'] <:+: ", ".toList.intercalate names := by
  have comma := sign_apart sign ',' (by decide)
  have space := sign_apart sign ' ' (by decide)
  induction names with
  | nil => exact not_infix_of_notMem List.not_mem_nil
  | cons name names ih =>
      obtain ⟨here, later⟩ := List.forall_mem_cons.mp lacks
      cases names with
      | nil => rwa [List.intercalate_singleton]
      | cons next names =>
          have written : ", ".toList.intercalate (name :: next :: names) =
              name ++ ',' :: ([] ++ ' ' :: ", ".toList.intercalate (next :: names)) := by
            rw [List.intercalate_cons_cons]
            simp
          rw [written, Text.pair_infix_separated comma.1 comma.2, Text.pair_infix_separated space.1 space.2]
          exact not_or.mpr ⟨here, not_or.mpr ⟨not_infix_of_notMem List.not_mem_nil, ih later⟩⟩

theorem not_infix_writtenReason (sign : c ∈ ['*', '/']) {reason : Option (List Char)}
    (lacks : ∀ r ∈ reason, ¬ [c, '/'] <:+: r) : ¬ [c, '/'] <:+: writtenReason reason := by
  have quote := sign_apart sign '"' (by decide)
  cases reason with
  | none => exact not_infix_of_notMem List.not_mem_nil
  | some reason =>
      have split : writtenReason (some reason) = (' ' :: "reason=".toList) ++ '"' :: (reason ++ ['"']) := by
        rw [writtenReason, List.cons_append]
      rw [split, Text.pair_infix_separated quote.1 quote.2, Text.pair_infix_separated quote.1 quote.2]
      exact not_or.mpr ⟨not_infix_of_notMem (by decide),
        not_or.mpr ⟨lacks reason rfl, not_infix_of_notMem List.not_mem_nil⟩⟩

/-- A directive is written without a word that opens or closes a comment, if its parts are. -/
theorem Lacks.written (lacks : d.Lacks [c, '/']) (sign : c ∈ ['*', '/']) : ¬ [c, '/'] <:+: d.written := by
  have opening := sign_apart sign '(' (by decide)
  have closing := sign_apart sign ')' (by decide)
  have split : d.written = (mark ++ " allow".toList) ++
      '(' :: (", ".toList.intercalate d.rules ++ ')' :: writtenReason d.reason) := rfl
  rw [split, Text.pair_infix_separated opening.1 opening.2, Text.pair_infix_separated closing.1 closing.2]
  exact not_or.mpr ⟨not_infix_of_notMem (by decide), not_or.mpr ⟨not_infix_intercalate sign lacks.1,
    not_infix_writtenReason sign lacks.2⟩⟩

theorem trim_written (d : Directive) : Text.trim d.written = d.written := by
  apply Text.trim_eq_self
  · have begins : d.written.head? = some 'h' := rfl
    rw [begins]
    rintro c ⟨⟩
    decide
  · have split : d.written = (mark ++ ' ' :: "allow(".toList ++ ", ".toList.intercalate d.rules) ++
        ')' :: writtenReason d.reason := by
      rw [written, writtenBody]
      simp only [List.append_assoc, List.cons_append]
    rw [split]
    exact isBlank_last _ _

/-- The first comment on a line decides, if it holds a directive. -/
theorem Writable.ofLine? (writable : d.Writable) (bodies : commentBodies line = body :: more)
    (trimmed : Text.trim body = d.written) : ofLine? line = some d := by
  have found : Text.stripPrefix? mark (Text.trim body) = some d.writtenBody := by
    rw [trimmed]
    exact Text.stripPrefix?_append mark d.writtenBody
  rw [Directive.ofLine?, bodies, List.findSome?_cons, found]
  exact writable.parseBody?

/-- A text is all of a comment, if it does not have its end in it. -/
theorem commentBody_open (unclosed : ¬ ['*', '/'] <:+: body) : commentBody body = body := by
  rw [commentBody, Text.cutAt?_eq_none_iff.mpr unclosed]

theorem commentBody_closed (unclosed : ¬ ['*', '/'] <:+: body ++ ['*']) (after : List Char) :
    commentBody (body ++ (['*', '/'] ++ after)) = body := by
  rw [commentBody, Text.cutAt?_append (List.cons_ne_nil _ _) unclosed]

/-- The first line comment comes first of all comments. -/
theorem exists_bodies_line (first : ¬ ['/', '/'] <:+: before ++ ['/']) (body : List Char) :
    ∃ more, commentBodies (before ++ (['/', '/'] ++ body)) = commentBody body :: more := by
  obtain ⟨more, found⟩ := Text.exists_followers (List.cons_ne_nil _ _)
    (Text.cutAt?_append (List.cons_ne_nil _ _) first body)
  rw [commentBodies, found]
  exact ⟨_, rfl⟩

/-- On a line without line comments the first block comment does. -/
theorem exists_bodies_block (first : ¬ ['/', '*'] <:+: before ++ ['/'])
    (none : ¬ ['/', '/'] <:+: before ++ (['/', '*'] ++ body)) :
    ∃ more, commentBodies (before ++ (['/', '*'] ++ body)) = commentBody body :: more := by
  obtain ⟨more, found⟩ := Text.exists_followers (List.cons_ne_nil _ _)
    (Text.cutAt?_append (List.cons_ne_nil _ _) first body)
  rw [commentBodies, Text.followers_eq_nil none, found]
  exact ⟨_, rfl⟩

/-- A directive in a line comment is read back. -/
theorem Writable.ofLine?_lineComment (writable : d.Writable) (unclosed : d.Lacks ['*', '/'])
    (first : ¬ ['/', '/'] <:+: before) (apart : before.getLast? ≠ some '/') :
    Directive.ofLine? (before ++ (['/', '/'] ++ ' ' :: d.written)) = some d := by
  have opens : ¬ ['/', '/'] <:+: before ++ ['/'] := by
    rw [Text.pair_infix_append_iff]
    rintro (early | alone | seam)
    · exact first early
    · exact Text.pair_not_infix_singleton alone
    · exact apart seam.1
  have whole : ¬ ['*', '/'] <:+: ' ' :: d.written := by
    rw [Text.pair_infix_cons_iff (by decide)]
    exact unclosed.written (by decide)
  obtain ⟨more, bodies⟩ := exists_bodies_line opens (' ' :: d.written)
  rw [commentBody_open whole] at bodies
  apply writable.ofLine? bodies
  rw [Text.trim_cons_of_isBlank isBlank_space, trim_written]

/-- A directive in a block comment is read back. -/
theorem Writable.ofLine?_blockComment (writable : d.Writable) (unclosed : d.Lacks ['*', '/'])
    (single : d.Lacks ['/', '/']) (free : '/' ∉ before) (free' : '/' ∉ after) :
    Directive.ofLine? (before ++ (['/', '*'] ++ (' ' :: (d.written ++ [' ']) ++ (['*', '/'] ++ after)))) =
      some d := by
  have padded : ∀ {c}, c ∈ ['*', '/'] → d.Lacks [c, '/'] → ¬ [c, '/'] <:+: ' ' :: (d.written ++ [' ']) := by
    intro c sign lacks
    have space := sign_apart sign ' ' (by decide)
    rw [Text.pair_infix_cons_iff space.1, Text.pair_infix_separated space.1 space.2]
    exact not_or.mpr ⟨lacks.written sign, not_infix_of_notMem List.not_mem_nil⟩
  have closes : ¬ ['*', '/'] <:+: ' ' :: (d.written ++ [' ']) ++ ['*'] := by
    rw [Text.pair_infix_append_iff]
    rintro (early | alone | seam)
    · exact padded (by decide) unclosed early
    · exact Text.pair_not_infix_singleton alone
    · exact absurd (Option.some.inj seam.2) (by decide)
  have noLine : ¬ ['/', '/'] <:+:
      before ++ (['/', '*'] ++ (' ' :: (d.written ++ [' ']) ++ (['*', '/'] ++ after))) := by
    have split : before ++ (['/', '*'] ++ (' ' :: (d.written ++ [' ']) ++ (['*', '/'] ++ after))) =
        (before ++ ['/']) ++ '*' :: (' ' :: (d.written ++ [' ']) ++ '*' :: ('/' :: after)) := by
      simp
    rw [split, Text.pair_infix_separated (x := '*') (by decide) (by decide),
      Text.pair_infix_separated (x := '*') (by decide) (by decide)]
    rintro (early | inside | late)
    · exact Text.pair_not_infix_concat free early
    · exact padded (by decide) single inside
    · exact Text.pair_not_infix_cons free' late
  obtain ⟨more, bodies⟩ := exists_bodies_block (Text.pair_not_infix_concat free) noLine
  rw [commentBody_closed closes] at bodies
  apply writable.ofLine? bodies
  rw [Text.trim_cons_of_isBlank isBlank_space, Text.trim_concat_of_isBlank isBlank_space, trim_written]

/-- Reading a line undoes the writing of a directive. A line comment may follow any text without two
slashes in a row, if that text does not end in a slash; a block comment may stand among any text without
slashes, if there are no two slashes in a row inside. The directive is read with the names and the reason
it was written with. -/
theorem ofLine?_written (d : Directive) (writable : d.Writable) (unclosed : d.Lacks "*/".toList)
    (before : List Char) :
    (¬ "//".toList <:+: before → before.getLast? ≠ some '/' →
      ofLine? (before ++ "// ".toList ++ d.written) = some d) ∧
    ∀ after, '/' ∉ before → '/' ∉ after → d.Lacks "//".toList →
      ofLine? (before ++ "/* ".toList ++ d.written ++ " */".toList ++ after) = some d := by
  constructor
  · intro first apart
    have read := writable.ofLine?_lineComment unclosed first apart
    simpa using read
  · intro after free free' single
    have read := writable.ofLine?_blockComment unclosed single free free'
    simpa using read

/-- A directive whose reason has an address, parentheses, commas and blanks at its ends. -/
def wordy : Directive :=
  ⟨["vars-on-top".toList, "no//such rule".toList], some " see (https://x.y/a, b), twice ".toList⟩

def brief : Directive :=
  ⟨["vars-on-top".toList, "all".toList], none⟩

/-- The reason of a line comment is kept as it is, and a block comment may stand within a line. -/
theorem ofLine?_written_both :
    wordy.Writable ∧ brief.Writable ∧
      ofLine? ("a = b / 2; ".toList ++ "// ".toList ++ wordy.written) = some wordy ∧
      ofLine? ("var a; ".toList ++ "/* ".toList ++ brief.written ++ " */".toList ++ " f(a);".toList) =
        some brief := by
  have writable : wordy.Writable :=
    ⟨by decide, by decide, by decide, by decide, by rintro _ ⟨⟩; decide⟩
  have writable' : brief.Writable := ⟨by decide, by decide, by decide, by decide, nofun⟩
  have unclosed : wordy.Lacks "*/".toList := ⟨by decide, by rintro _ ⟨⟩; decide⟩
  have unclosed' : brief.Lacks "*/".toList := ⟨by decide, nofun⟩
  exact ⟨writable, writable',
    (ofLine?_written wordy writable unclosed _).1 (by decide) (by decide),
    (ofLine?_written brief writable' unclosed' _).2 _ (by decide) (by decide) ⟨by decide, nofun⟩⟩

end ScopeLint.Directive
