import ScopeLint.Toml.Document
import ScopeLint.Toml.Quoted
import ScopeLint.Toml.Scalar

/-!
# Reading TOML

A file is read line by line into settings and headers, which `Toml.Document` puts together. The reader
tells only whether a text is TOML, not where it fails.
-/

namespace ScopeLint.Toml

/-- Keys with this many parts, and values nested this deep, are refused. -/
def depthLimit : Nat := 80

def skipBlanks (cs : List Char) : List Char :=
  cs.dropWhile fun c => c = ' ' || c = '\t'

/-- Skip blanks, line ends and comments inside an array; `none` at a character that may not stand in a
comment. -/
def skipFiller : (inComment : Bool) → List Char → Option (List Char)
  | _, [] => some []
  | _, '\r' :: '\n' :: cs => skipFiller false cs
  | inComment, c :: cs =>
      if c = '\n' then skipFiller false cs
      else if inComment then (if isPrintable c then skipFiller true cs else none)
      else if c = ' ' ∨ c = '\t' then skipFiller false cs
      else if c = '#' then skipFiller true cs
      else some (c :: cs)

/-- Go to the next line, past blanks and a comment. -/
def endLine : (inComment : Bool) → List Char → Option (List Char)
  | _, [] => some []
  | _, '\r' :: '\n' :: cs => some cs
  | inComment, c :: cs =>
      if c = '\n' then some cs
      else if inComment then (if isPrintable c then endLine true cs else none)
      else if c = ' ' ∨ c = '\t' then endLine false cs
      else if c = '#' then endLine true cs
      else none

/-- Read the parts of a key, of which each takes at least one character. -/
def readKeyParts : (fuel : Nat) → List Char → Option (List Key × List Char)
  | 0, _ => none
  | fuel + 1, cs =>
      match readKeyPart (skipBlanks cs) with
      | none => none
      | some (part, rest) =>
          match skipBlanks rest with
          | '.' :: rest => (readKeyParts fuel rest).map fun read => (part :: read.1, read.2)
          | rest => some ([part], rest)

/-- Read a key: its parts before the last, and the last. -/
def readKey (cs : List Char) : Option (List Key × Key × List Char) :=
  match readKeyParts depthLimit cs with
  | none => none
  | some (parts, rest) =>
      if parts.length < depthLimit then
        parts.getLast?.map fun key => (parts.dropLast, key, rest)
      else none

mutual

/-- Read a value at a nesting depth. Every nested value takes at least one character, so the length of
the text is fuel enough. -/
def readValue : (fuel depth : Nat) → List Char → Option (Toml × List Char)
  | 0, _, _ => none
  | fuel + 1, depth, cs =>
      match cs with
      | '[' :: rest =>
          if depth + 1 < depthLimit then
            (readItems fuel (depth + 1) rest).map fun (items, rest) => (.array items, rest)
          else none
      | '\x7b' :: rest =>
          if depth + 1 < depthLimit then
            match skipBlanks rest with
            | '\x7d' :: rest => some (.table [], rest)
            | rest =>
                (readSettings fuel (depth + 1) rest).bind fun (settings, rest) =>
                  (inlineTable? settings).map fun table => (table, rest)
          else none
      | c :: rest =>
          if c = '"' ∨ c = '\x27' then
            (readString (c :: rest)).map fun (text, rest) => (.string text, rest)
          else readScalar (c :: rest)
      | [] => none

/-- Read the items of an array and its closing bracket. -/
def readItems : (fuel depth : Nat) → List Char → Option (List Toml × List Char)
  | 0, _, _ => none
  | fuel + 1, depth, cs =>
      match skipFiller false cs with
      | none => none
      | some (']' :: rest) => some ([], rest)
      | some cs =>
          match readValue fuel depth cs with
          | none => none
          | some (item, rest) =>
              match skipFiller false rest with
              | some (',' :: rest) =>
                  (readItems fuel depth rest).map fun read => (item :: read.1, read.2)
              | some (']' :: rest) => some ([item], rest)
              | _ => none

/-- Read the settings of an inline table and its closing brace. -/
def readSettings : (fuel depth : Nat) → List Char → Option (List Setting × List Char)
  | 0, _, _ => none
  | fuel + 1, depth, cs =>
      match readSetting fuel depth cs with
      | none => none
      | some (setting, rest) =>
          match skipBlanks rest with
          | ',' :: rest =>
              (readSettings fuel depth rest).map fun read => (setting :: read.1, read.2)
          | '\x7d' :: rest => some ([setting], rest)
          | _ => none

/-- Read a key and its value. -/
def readSetting : (fuel depth : Nat) → List Char → Option (Setting × List Char)
  | 0, _, _ => none
  | fuel + 1, depth, cs =>
      match readKey cs with
      | some (path, key, '=' :: rest) =>
          (readValue fuel depth (skipBlanks rest)).map fun (value, rest) =>
            (⟨path, key, value⟩, rest)
      | _ => none

end

/-- Read a header after its opening brackets, up to the closing ones and the end of the line. -/
def readHeader (isList : Bool) (cs : List Char) : Option (Section × List Char) :=
  match readKey cs with
  | some (path, key, ']' :: rest) =>
      if isList then
        match rest with
        | ']' :: rest => (endLine false rest).map fun rest => (⟨path, key, true, []⟩, rest)
        | _ => none
      else (endLine false rest).map fun rest => (⟨path, key, false, []⟩, rest)
  | _ => none

/-- A line of a file, if it has content. -/
inductive Line where
  | setting (s : Setting)
  | header (s : Section)

def readLine (cs : List Char) : Option (Line × List Char) :=
  match cs with
  | '[' :: '[' :: rest => (readHeader true rest).map fun (s, rest) => (.header s, rest)
  | '[' :: rest => (readHeader false rest).map fun (s, rest) => (.header s, rest)
  | cs =>
      (readSetting (3 * cs.length + 3) 0 cs).bind fun (setting, rest) =>
        (endLine false rest).map fun rest => (.setting setting, rest)

/-- Read the lines of a text; every line takes at least one character. -/
def readLines : (fuel : Nat) → List Char → Option (List Line)
  | 0, _ => none
  | fuel + 1, cs =>
      match skipFiller false cs with
      | none => none
      | some [] => some []
      | some cs =>
          match readLine cs with
          | none => none
          | some (line, rest) => (readLines fuel rest).map (line :: ·)

/-- Divide lines into the settings before the first header and the sections. -/
def groupLines : List Line → List Setting × List Section
  | [] => ([], [])
  | .setting s :: lines =>
      let (settings, sections) := groupLines lines
      (s :: settings, sections)
  | .header s :: lines =>
      let (settings, sections) := groupLines lines
      ([], { s with settings } :: sections)

/-- A byte order mark at the start of a file does not count. -/
def dropMark : List Char → List Char
  | '\ufeff' :: cs => cs
  | cs => cs

/-- The table of a settings file, or `none` if it is not TOML. -/
def read? (text : List Char) : Option (List (Key × Toml)) :=
  let cs := dropMark text
  (readLines (cs.length + 1) cs).bind fun lines =>
    let (settings, sections) := groupLines lines
    document? settings sections

end ScopeLint.Toml
