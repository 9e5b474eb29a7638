import ScopeLint.Json.Report

/-!
# Output of reports

A report can be written as coloured text, as indented JSON, with one line for each finding, or with the
findings drawn. The coloured text is the plain text of the report with colours added. How a finding is
drawn is given from outside.
-/

namespace ScopeLint

inductive Colour where
  | red
  | green
  | yellow
  | blue
  deriving DecidableEq, Repr

namespace Colour

/-- The number of a colour in the escape sequences of a terminal. -/
def code : Colour → Nat
  | red => 31
  | green => 32
  | yellow => 33
  | blue => 34

/-- The escape sequence that sets a display attribute. -/
def escape (code : Nat) : String :=
  s!"\x1b[{code}m"

/-- A text in a colour, and the display set back after it. -/
def paint (c : Colour) (text : String) : String :=
  escape c.code ++ text ++ escape 0

def ofSeverity : Severity → Colour
  | .error => red
  | .warning => yellow
  | .info => blue

end Colour

namespace Finding

/-- The finding on several lines, with its severity in colour. -/
def colouredParagraph (f : Finding) : String :=
  f.headline ++ "  " ++ (Colour.ofSeverity f.severity).paint f.severity.name ++ s!": {f.message}\n" ++
    f.remarks

end Finding

namespace Report

/-- The colour of the tally: that of the gravest finding, as far as it is an error or a warning. -/
def tallyColour (r : Report) : Colour :=
  if 0 < r.count .error then .red else if 0 < r.count .warning then .yellow else .green

def colouredText (r : Report) : String :=
  String.join (r.findings.map fun f => f.colouredParagraph ++ "\n") ++ r.tallyColour.paint r.tally ++ "\n"

/-- One line for each finding. -/
def compactText (r : Report) : String :=
  String.join (r.findings.map fun f => f.summary ++ "\n")

/-- The findings drawn, with a line end after each, then the tally. -/
def drawnText (draw : Finding → String) (r : Report) : String :=
  String.join (r.findings.map fun f => draw f ++ "\n") ++ r.tally ++ "\n"

def jsonText (r : Report) : String :=
  String.ofList (r.toJson.indented 0) ++ "\n"

end Report

/-- The form in which a report is written. -/
inductive Format where
  | text
  | json
  | compact
  | pretty
  deriving DecidableEq, Repr

namespace Format

def name : Format → String
  | text => "text"
  | json => "json"
  | compact => "compact"
  | pretty => "pretty"

def all : List Format := [text, json, compact, pretty]

def ofName? (name : String) : Option Format :=
  all.find? fun f => f.name = name

/-- Write a report, given how its findings are drawn. -/
def render (draw : Finding → String) : Format → Report → String
  | text, r => r.colouredText
  | json, r => r.jsonText
  | compact, r => r.compactText
  | pretty, r => r.drawnText draw

end Format

end ScopeLint
