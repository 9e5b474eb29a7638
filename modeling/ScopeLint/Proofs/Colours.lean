import Mathlib.Data.List.TakeWhile
import ScopeLint.Console

/-!
# Colours take nothing away

The coloured text of a report is its plain text with escape sequences in it. Deleting the sequences gives
the plain text back, as long as the report has no escape character of its own, which could begin another
sequence. `Shows` says this of a piece of text whatever follows it, so that pieces can be put together.
-/

namespace ScopeLint

namespace Text

variable {cs rest : List Char} {s t painted plain painted' plain' : String}

/-- The character that begins an escape sequence. -/
def escapeChar : Char := '\x1b'

/-- What follows the rest of an escape sequence at the start of a text: `[`, digits and `m`. -/
def afterSequence? : List Char → Option (List Char)
  | '[' :: cs =>
      match cs.takeWhile Char.isDigit, cs.dropWhile Char.isDigit with
      | _ :: _, 'm' :: rest => some rest
      | _, _ => none
  | _ => none

theorem afterSequence?_eq_some_iff : afterSequence? cs = some rest ↔
    ∃ digits, digits ≠ [] ∧ (∀ d ∈ digits, d.isDigit) ∧ cs = '[' :: digits ++ 'm' :: rest := by
  constructor
  · intro found
    unfold afterSequence? at found
    split at found
    · rename_i cs
      split at found
      · rename_i d ds follows before after
        cases found
        refine ⟨cs.takeWhile Char.isDigit, by simp [before], fun d member => List.mem_takeWhile_imp member, ?_⟩
        rw [List.cons_append, ← after, List.takeWhile_append_dropWhile]
      · cases found
    · cases found
  · rintro ⟨digits, filled, all, rfl⟩
    obtain ⟨d, ds, rfl⟩ := List.exists_cons_of_ne_nil filled
    have before : (d :: ds ++ 'm' :: rest).takeWhile Char.isDigit = d :: ds := by
      rw [List.takeWhile_append_of_pos all]
      simp
    have after : (d :: ds ++ 'm' :: rest).dropWhile Char.isDigit = 'm' :: rest := by
      rw [List.dropWhile_append_of_pos all]
      rfl
    rw [List.cons_append, afterSequence?, before, after]
    rfl

theorem length_lt_of_afterSequence? (found : afterSequence? cs = some rest) : rest.length < cs.length := by
  obtain ⟨digits, _, _, rfl⟩ := afterSequence?_eq_some_iff.mp found
  simp only [List.cons_append, List.length_cons, List.length_append]
  omega

/-- Delete every escape sequence from a text. -/
def withoutSequences : List Char → List Char
  | [] => []
  | c :: cs =>
      if c = escapeChar then
        match _found : afterSequence? cs with
        | some rest => withoutSequences rest
        | none => c :: withoutSequences cs
      else c :: withoutSequences cs
termination_by cs => cs.length
decreasing_by
  · have shorter := length_lt_of_afterSequence? _found
    rw [List.length_cons]
    omega
  · simp
  · simp

/-- A text as it is shown: without its escape sequences. -/
def shown (s : String) : String :=
  String.ofList (withoutSequences s.toList)

/-- Whether a text has no escape character. -/
def Free (s : String) : Prop :=
  escapeChar ∉ s.toList

instance : Decidable (Free s) :=
  inferInstanceAs (Decidable (escapeChar ∉ s.toList))

/-- Whether a text shows another one, whatever follows it. -/
def Shows (painted plain : String) : Prop :=
  ∀ rest, withoutSequences (painted.toList ++ rest) = plain.toList ++ withoutSequences rest

theorem free_append_iff : Free (s ++ t) ↔ Free s ∧ Free t := by
  simp [Free, String.toList_append]

theorem free_repr (n : Nat) : Free n.repr := by
  intro member
  have digit := Nat.isDigit_of_mem_toDigits (by decide) (by decide) (Nat.toList_repr ▸ member)
  revert digit
  decide

theorem withoutSequences_cons_of_ne {c : Char} (other : c ≠ escapeChar) (cs : List Char) :
    withoutSequences (c :: cs) = c :: withoutSequences cs := by
  rw [withoutSequences, if_neg other]

theorem withoutSequences_sequence (found : afterSequence? cs = some rest) :
    withoutSequences (escapeChar :: cs) = withoutSequences rest := by
  rw [withoutSequences, if_pos rfl]
  split
  · rename_i found'
    rw [found] at found'
    cases found'
    rfl
  · rename_i none
    rw [found] at none
    cases none

theorem Free.shows (free : Free s) : Shows s s := by
  intro rest
  have apart : ∀ c ∈ s.toList, c ≠ escapeChar := fun c member same => free (same ▸ member)
  generalize s.toList = cs at apart
  induction cs with
  | nil => rfl
  | cons c cs ih =>
      obtain ⟨other, later⟩ := List.forall_mem_cons.mp apart
      rw [List.cons_append, withoutSequences_cons_of_ne other, ih later, List.cons_append]

theorem Shows.append (first : Shows painted plain) (second : Shows painted' plain') :
    Shows (painted ++ painted') (plain ++ plain') := by
  intro rest
  rw [String.toList_append, String.toList_append, List.append_assoc, first, second, List.append_assoc]

theorem shows_empty : Shows "" "" := by
  intro rest
  rfl

theorem Shows.join {α : Type} {xs : List α} {f g : α → String} (each : ∀ x ∈ xs, Shows (f x) (g x)) :
    Shows (String.join (xs.map f)) (String.join (xs.map g)) := by
  induction xs with
  | nil => exact shows_empty
  | cons x xs ih =>
      obtain ⟨here, later⟩ := List.forall_mem_cons.mp each
      rw [List.map_cons, List.map_cons, String.join_cons, String.join_cons]
      exact here.append (ih later)

theorem Shows.shown_eq (shows : Shows painted plain) : shown painted = plain := by
  have whole := shows []
  rw [List.append_nil, withoutSequences, List.append_nil] at whole
  rw [shown, whole, String.ofList_toList]

end Text

namespace Colour

open Text

/-- An escape sequence shows nothing. -/
theorem escape_shows (code : Nat) : Shows (escape code) "" := by
  intro rest
  have written : (escape code).toList ++ rest =
      escapeChar :: ('[' :: Nat.toDigits 10 code ++ 'm' :: rest) := by
    have parts : escape code = "\x1b[" ++ toString code ++ "m" := rfl
    rw [parts, String.toList_append, String.toList_append, Nat.toString_eq_repr, Nat.toList_repr,
      List.append_assoc]
    rfl
  have sequence : afterSequence? ('[' :: Nat.toDigits 10 code ++ 'm' :: rest) = some rest :=
    afterSequence?_eq_some_iff.mpr ⟨_, Nat.toDigits_ne_nil,
      fun _ member => Nat.isDigit_of_mem_toDigits (by decide) (by decide) member, rfl⟩
  rw [written, withoutSequences_sequence sequence]
  rfl

theorem paint_shows (c : Colour) {text : String} (free : Free text) : Shows (c.paint text) text := by
  have shows := ((escape_shows c.code).append free.shows).append (escape_shows 0)
  rwa [String.empty_append, String.append_empty] at shows

end Colour

namespace Finding

open Text

variable {f : Finding}

/-- Whether no text of a finding has an escape character. -/
structure EscapeFree (f : Finding) : Prop where
  code : Free f.code
  rule : Free f.rule
  file : Free f.location.file.text
  message : Free f.message
  help : ∀ text ∈ f.help, Free text
  notes : ∀ note ∈ f.notes, Free note.message

theorem escapeFree_iff : f.EscapeFree ↔ Free f.code ∧ Free f.rule ∧ Free f.location.file.text ∧
    Free f.message ∧ (∀ text ∈ f.help, Free text) ∧ ∀ note ∈ f.notes, Free note.message := by
  constructor
  · rintro ⟨code, rule, file, message, help, notes⟩
    exact ⟨code, rule, file, message, help, notes⟩
  · rintro ⟨code, rule, file, message, help, notes⟩
    exact ⟨code, rule, file, message, help, notes⟩

instance : Decidable f.EscapeFree :=
  decidable_of_iff _ escapeFree_iff.symm

theorem free_headline (free : f.EscapeFree) : Free f.headline := by
  have parts : f.headline = f.code ++ " " ++ f.rule ++ " at " ++ f.location.file.text ++ ":" ++
      toString f.location.line ++ ":" ++ toString f.location.column ++ "\n" := rfl
  simp +decide [parts, free_append_iff, free_repr, free.code, free.rule, free.file]

theorem free_noteLine {note : Note} (free : Free note.message) : Free (noteLine note) := by
  have parts : noteLine note = "  = note: " ++ note.message ++ " (line " ++
      toString note.location.line ++ ")\n" := rfl
  simp +decide [parts, free_append_iff, free_repr, free]

theorem free_helpLine {message : String} (free : Free message) : Free (helpLine message) := by
  have parts : helpLine message = "  = help: " ++ message ++ "\n" := rfl
  simp +decide [parts, free_append_iff, free]

theorem free_remarks (free : f.EscapeFree) : Free f.remarks := by
  rw [remarks, free_append_iff]
  constructor
  · rw [Free, String.toList_join, List.mem_flatMap]
    rintro ⟨line, member, escape⟩
    obtain ⟨note, listed, rfl⟩ := List.mem_map.mp member
    exact free_noteLine (free.notes note listed) escape
  · cases given : f.help with
    | none => decide
    | some message => exact free_helpLine (free.help message given)

theorem free_name (severity : Severity) : Free severity.name := by
  cases severity <;> decide

/-- The coloured paragraph of a finding shows its plain one. -/
theorem colouredParagraph_shows (free : f.EscapeFree) : Shows f.colouredParagraph f.paragraph := by
  have plain : f.paragraph = f.headline ++ "  " ++ f.severity.name ++ (": " ++ f.message ++ "\n") ++
      f.remarks := by
    have parts : f.paragraph =
        f.headline ++ ("  " ++ f.severity.name ++ ": " ++ f.message ++ "\n") ++ f.remarks := rfl
    simp only [parts, String.append_assoc]
  have painted : f.colouredParagraph = f.headline ++ "  " ++
      (Colour.ofSeverity f.severity).paint f.severity.name ++ (": " ++ f.message ++ "\n") ++ f.remarks := rfl
  have rest : Free (": " ++ f.message ++ "\n") := by
    simp +decide [free_append_iff, free.message]
  rw [plain, painted]
  apply Shows.append
  · apply Shows.append
    · apply Shows.append
      · exact (free_headline free).shows.append (Free.shows (by decide))
      · exact Colour.paint_shows _ (free_name f.severity)
    · exact rest.shows
  · exact (free_remarks free).shows

end Finding

namespace Report

open Text

theorem free_tally (r : Report) : Free r.tally := by
  have parts : r.tally = "Found " ++ toString (r.count .error) ++ " error(s), " ++
      toString (r.count .warning) ++ " warning(s), " ++ toString (r.count .info) ++ " info(s) " ++
      ("in " ++ toString r.filesChecked ++ " file(s)") := rfl
  simp +decide [parts, free_append_iff, free_repr]

/-- Without its escape sequences the coloured text of a report is the plain text and a line end, for any
findings whose texts have no escape character. -/
theorem shown_colouredText (r : Report) (free : ∀ f ∈ r.findings, f.EscapeFree) :
    shown r.colouredText = r.plainText ++ "\n" := by
  have newline : Shows "\n" "\n" := Free.shows (by decide)
  have paragraphs : Shows (String.join (r.findings.map fun f => f.colouredParagraph ++ "\n"))
      (String.join (r.findings.map fun f => f.paragraph ++ "\n")) :=
    Shows.join fun f member => (Finding.colouredParagraph_shows (free f member)).append newline
  have tally : Shows (r.tallyColour.paint r.tally) r.tally := Colour.paint_shows _ (free_tally r)
  exact ((paragraphs.append tally).append newline).shown_eq

/-- A report that has the text of a sequence in it, but for the escape character. -/
def quoting : Report where
  findings :=
    [{ code := "HL001", rule := "vars-on-top", severity := .error, message := "[31m is red"
       location := { file := .ofString "a [0m.js", line := 2, column := 1 }
       help := some "Move it"
       notes := [⟨{ file := .ofString "a.js", line := 1, column := 1 }, "first"⟩] },
     { code := "HL001", rule := "vars-on-top", severity := .info, message := "unused"
       location := { file := .ofString "b.js", line := 10, column := 3 } }]
  filesChecked := 2

/-- The sequences that colour the severities and the tally are taken out, and what only looks like one
stays. -/
theorem shown_colouredText_quoting : (∀ f ∈ quoting.findings, f.EscapeFree) ∧
    quoting.colouredText = "HL001 vars-on-top at a [0m.js:2:1\n  \x1b[31merror\x1b[0m: [31m is red\n" ++
      "  = note: first (line 1)\n  = help: Move it\n\n" ++
      "HL001 vars-on-top at b.js:10:3\n  \x1b[34minfo\x1b[0m: unused\n\n" ++
      "\x1b[31mFound 1 error(s), 0 warning(s), 1 info(s) in 2 file(s)\x1b[0m\n" ∧
    shown quoting.colouredText = "HL001 vars-on-top at a [0m.js:2:1\n  error: [31m is red\n" ++
      "  = note: first (line 1)\n  = help: Move it\n\n" ++
      "HL001 vars-on-top at b.js:10:3\n  info: unused\n\n" ++
      "Found 1 error(s), 0 warning(s), 1 info(s) in 2 file(s)\n" := by
  have free : ∀ f ∈ quoting.findings, f.EscapeFree := by decide
  refine ⟨free, by decide +kernel, ?_⟩
  rw [shown_colouredText quoting free]
  decide +kernel

end Report

end ScopeLint
