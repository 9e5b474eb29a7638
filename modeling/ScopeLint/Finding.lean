import ScopeLint.Path
import ScopeLint.Severity
import ScopeLint.Syntax.Outline

/-!
# Findings

What a rule has to say about a place in a source file, with notes on other places and a line of help.
-/

namespace ScopeLint

/-- A place in a file: position of its start, byte offset and length in bytes. -/
structure Location where
  file : Path
  line : Nat
  column : Nat
  offset : Nat := 0
  length : Nat := 0
  deriving DecidableEq, Repr

def Location.ofSpan (file : Path) (span : Span) : Location :=
  { file, line := span.line, column := span.column, offset := span.start, length := span.length }

/-- A remark on a further place. -/
structure Note where
  location : Location
  message : String
  deriving DecidableEq, Repr

structure Finding where
  code : String
  rule : String
  severity : Severity
  location : Location
  message : String
  help : Option String := none
  notes : List Note := []
  deriving DecidableEq, Repr

namespace Finding

/-- The finding on one line. -/
def summary (f : Finding) : String :=
  s!"{f.location.file.text}:{f.location.line}:{f.location.column}: " ++
    s!"{f.severity.name} [{f.code}] {f.message}"

/-- The line that names the rule and the place. -/
def headline (f : Finding) : String :=
  s!"{f.code} {f.rule} at {f.location.file.text}:{f.location.line}:{f.location.column}\n"

def noteLine (note : Note) : String :=
  s!"  = note: {note.message} (line {note.location.line})\n"

def helpLine (message : String) : String :=
  s!"  = help: {message}\n"

/-- The lines below the message: the notes, then the help. -/
def remarks (f : Finding) : String :=
  String.join (f.notes.map noteLine) ++
    match f.help with
    | some message => helpLine message
    | none => ""

/-- The finding on several lines. -/
def paragraph (f : Finding) : String :=
  f.headline ++ s!"  {f.severity.name}: {f.message}\n" ++ f.remarks

end Finding

/-- A stretch of source text that a drawn finding points at, with its caption. -/
structure Marker where
  caption : String
  offset : Nat
  length : Nat
  isPrimary : Bool
  deriving DecidableEq, Repr

namespace Finding

/-- The title of a drawn finding. -/
def title (f : Finding) : String :=
  s!"[{f.code}] {f.message}"

/-- The places a drawn finding points at: its own, captioned with the rule, then its notes. -/
def markers (f : Finding) : List Marker :=
  ⟨f.rule, f.location.offset, f.location.length, true⟩ ::
    f.notes.map fun note => ⟨note.message, note.location.offset, note.location.length, false⟩

end Finding

/-- What there is to draw of a finding: its title, severity and help, the places it points at, and the name
and the text of its file. -/
structure Diagnostic where
  title : String
  severity : Severity
  help : Option String
  markers : List Marker
  file : Path
  source : List Char
  deriving DecidableEq, Repr

/-- What there is to draw of a finding in a text. -/
def Finding.diagnostic (f : Finding) (source : List Char) : Diagnostic where
  title := f.title
  severity := f.severity
  help := f.help
  markers := f.markers
  file := f.location.file
  source := source

/-- How a finding is drawn; a terminal has its own way. -/
abbrev Drawing := Diagnostic → String

end ScopeLint
