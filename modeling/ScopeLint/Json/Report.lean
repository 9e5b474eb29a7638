import ScopeLint.Json.Record
import ScopeLint.Report

/-!
# Reports in JSON

How findings and reports are written as JSON, and how they are read back. Notes are left out when
there are none; help is written as `null` when there is none.
-/

namespace ScopeLint

open Json (Fault Field Access toFields toCount toText toList toOption)

namespace Severity

def toJson (s : Severity) : Json :=
  .ofString s.name

/-- The severity with a name. -/
def named (name : List Char) : Except Fault Severity :=
  match ofName? (String.ofList name) with
  | some s => .ok s
  | none => .error (.misfit (.unknownVariant (String.ofList name) (all.map Severity.name)))

/-- A severity is a string, or an object whose only member has the severity for its key and `null` for
its value. That the member is the only one is seen first if the object is at hand, and else last. -/
def ofJson (access : Access) : Json → Except Fault Severity
  | .string name => named name
  | .object ((name, content) :: more) =>
      if access = .whole ∧ !more.isEmpty then
        .error (.misfit (.value .map "map with a single key"))
      else
        match content with
        | .unkeyed key _ => .error (Json.mismatch "variant identifier" key)
        | _ => do
            let severity ← named name
            match content with
            | .null => if more.isEmpty then return severity else throw .malformed
            | _ => throw (Json.mismatch "unit" content)
  | .object [] => .error (access.misplaced (.value .map "map with a single key"))
  | j =>
      match j.found? with
      | some found => .error (access.misplaced (.type found "string or map"))
      | none => .error .malformed

end Severity

namespace Path

def toJson (p : Path) : Json :=
  .string p.chars

def ofJson (j : Json) : Except Fault Path := do
  return ⟨← toText "path string" j⟩

end Path

def textOfJson (j : Json) : Except Fault String := do
  return String.ofList (← toText "a string" j)

namespace Location

def toJson (l : Location) : Json :=
  .object
    [("file".toList, l.file.toJson), ("line".toList, .ofNat l.line),
      ("column".toList, .ofNat l.column), ("offset".toList, .ofNat l.offset),
      ("length".toList, .ofNat l.length)]

def fields : List Field :=
  [.of "file" Path.ofJson .required, .of "line" toCount .required, .of "column" toCount .required,
    .of "offset" toCount .required, .of "length" toCount .required]

def ofJson (access : Access) (j : Json) : Except Fault Location := do
  match ← toFields access "Location" fields j with
  | [some file, some line, some column, some offset, some length] =>
      return { file := ← Path.ofJson file, line := ← toCount line, column := ← toCount column
               offset := ← toCount offset, length := ← toCount length }
  | _ => throw .malformed

end Location

namespace Note

def toJson (n : Note) : Json :=
  .object [("location".toList, n.location.toJson), ("message".toList, .ofString n.message)]

def fields (access : Access) : List Field :=
  [.of "location" (Location.ofJson access) .required, .of "message" textOfJson .required]

def ofJson (access : Access) (j : Json) : Except Fault Note := do
  match ← toFields access "Label" (fields access) j with
  | [some location, some message] =>
      return { location := ← Location.ofJson access location, message := ← textOfJson message }
  | _ => throw .malformed

end Note

namespace Help

/-- A line of help is a record with its message. -/
def toJson (message : String) : Json :=
  .object [("message".toList, .ofString message)]

def fields : List Field :=
  [.of "message" textOfJson .required]

def ofJson (access : Access) (j : Json) : Except Fault String := do
  match ← toFields access "Suggestion" fields j with
  | [some message] => textOfJson message
  | _ => throw .malformed

end Help

namespace Finding

def toJson (f : Finding) : Json :=
  .object
    ([("code".toList, .ofString f.code), ("rule".toList, .ofString f.rule),
      ("severity".toList, f.severity.toJson), ("location".toList, f.location.toJson),
      ("message".toList, .ofString f.message),
      ("suggestion".toList, match f.help with | some message => Help.toJson message | none => .null)] ++
      if f.notes.isEmpty then [] else [("labels".toList, .array (f.notes.map Note.toJson))])

def fields (access : Access) : List Field :=
  [.of "code" textOfJson .required, .of "rule" textOfJson .required,
    .of "severity" (Severity.ofJson access) .required, .of "location" (Location.ofJson access) .required,
    .of "message" textOfJson .required, .of "suggestion" (toOption (Help.ofJson access)) .optional,
    .of "labels" (toList (Note.ofJson access)) .defaulted]

def ofJson (access : Access) (j : Json) : Except Fault Finding := do
  match ← toFields access "Violation" (fields access) j with
  | [some code, some rule, some severity, some location, some message, help, notes] =>
      return { code := ← textOfJson code, rule := ← textOfJson rule
               severity := ← Severity.ofJson access severity, location := ← Location.ofJson access location
               message := ← textOfJson message, help := ← toOption (Help.ofJson access) (help.getD .null)
               notes := ← toList (Note.ofJson access) (notes.getD (.array [])) }
  | _ => throw .malformed

end Finding

namespace Report

def toJson (r : Report) : Json :=
  .object
    [("violations".toList, .array (r.findings.map Finding.toJson)),
      ("files_checked".toList, .ofNat r.filesChecked)]

def fields (access : Access) : List Field :=
  [.of "violations" (toList (Finding.ofJson access)) .required, .of "files_checked" toCount .required]

def ofJson (access : Access) (j : Json) : Except Fault Report := do
  match ← toFields access "LintResult" (fields access) j with
  | [some findings, some filesChecked] =>
      return { findings := ← toList (Finding.ofJson access) findings, filesChecked := ← toCount filesChecked }
  | _ => throw .malformed

end Report

/-- Read a text as one value, which is judged along the text. A fault of the value comes before text that follows it. -/
def Json.decode {α : Type} (content : Access → Json → Except Fault α) (text : List Char) :
    Except Fault α :=
  match Json.read text with
  | (value, clean) =>
      match content .along value with
      | .error fault => .error fault
      | .ok a => if clean then .ok a else .error .malformed

end ScopeLint
