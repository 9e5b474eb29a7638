import ScopeLint.FileSystem
import ScopeLint.Ignore.Pattern
import ScopeLint.Text.Blank

/-!
# Ignore files

Each line of an ignore file names paths below its directory that are to be passed over or, after a `!`,
kept. The last line that speaks about a path decides. A line that is malformed has no say, but its fault
is recorded; a line that is not text ends the file.
-/

namespace ScopeLint

/-- A line of an ignore file. -/
structure IgnoreRule where
  steps : List Wildcard
  keeps : Bool := false
  directoriesOnly : Bool := false
  deriving Repr

/-- What is wrong with an ignore file. -/
inductive IgnoreFlaw where
  | pattern (text : List Char) (flaw : PatternFlaw)
  | notText
  | isDirectory
  deriving DecidableEq, Repr

def IgnoreFlaw.message : IgnoreFlaw → String
  | pattern text flaw => s!"error parsing glob '{String.ofList text}': {flaw.message}"
  | notText => "stream did not contain valid UTF-8"
  | isDirectory => "Is a directory (os error 21)"

/-- A flaw of an ignore file and where it shows: in a line, or in the file as a whole. -/
structure IgnoreFault where
  file : Path
  line : Option Nat
  flaw : IgnoreFlaw
  deriving DecidableEq, Repr

def IgnoreFault.message (f : IgnoreFault) : String :=
  match f.line with
  | some line => s!"{f.file.text}: line {line}: {f.flaw.message}"
  | none => s!"{f.file.text}: {f.flaw.message}"

/-- What an ignore file says about a path. -/
inductive IgnoreVerdict where
  | ignored
  | kept
  deriving DecidableEq, Repr

namespace IgnoreRule

/-- A pattern without a slash speaks about every directory below. -/
def anchored (absolute : Bool) (pattern : List Char) : List Char :=
  let stars := "**/".toList
  if absolute || pattern.contains '/' then pattern
  else if pattern = "**".toList || stars.isPrefixOf pattern then pattern
  else stars ++ pattern

/-- A pattern that ends in `/**` speaks about what is in the directory, not about itself. -/
def inside (pattern : List Char) : List Char :=
  if "/**".toList.isSuffixOf pattern then pattern ++ "/*".toList else pattern

/-- Separate the slash that ends a pattern for directories. -/
def splitDirectoryMark (pattern : List Char) : Bool × List Char :=
  match pattern.reverse with
  | '/' :: '\\' :: cs => (true, cs.reverse)
  | '/' :: cs => (true, cs.reverse)
  | _ => (false, pattern)

/-- The rule of the pattern of a line. -/
def ofPattern (keeps absolute : Bool) (pattern : List Char) : Except PatternFlaw IgnoreRule := do
  let (directoriesOnly, pattern) := splitDirectoryMark pattern
  let steps ← Wildcard.parse (inside (anchored absolute pattern))
  return { steps, keeps, directoriesOnly }

/-- A leading slash ties a pattern to the directory of its file. -/
def ofMarked (keeps : Bool) : List Char → Except PatternFlaw IgnoreRule
  | '/' :: cs => ofPattern keeps true cs
  | cs => ofPattern keeps false cs

/-- The rule of a line that is not empty. -/
def ofText : List Char → Except PatternFlaw IgnoreRule
  | '\\' :: '!' :: cs => ofPattern false false ('!' :: cs)
  | '\\' :: '#' :: cs => ofPattern false false ('#' :: cs)
  | '!' :: cs => ofMarked true cs
  | cs => ofMarked false cs

/-- The rule of a line; comments and empty lines have none. -/
def ofLine (line : List Char) : Except IgnoreFlaw (Option IgnoreRule) :=
  if line.head? = some '#' then .ok none
  else
    let text := if ['\\', ' '].isSuffixOf line then line else Text.trimEnd line
    if text.isEmpty then .ok none
    else
      match ofText text with
      | .ok rule => .ok (some rule)
      | .error flaw => .error (.pattern text flaw)

def speaksOf (rule : IgnoreRule) (path : List UInt8) (isDirectory : Bool) : Bool :=
  (!rule.directoriesOnly || isDirectory) && Wildcard.accepts rule.steps path

end IgnoreRule

/-- The rules of an ignore file in order, and its flaws with their lines. -/
structure IgnoreFile where
  rules : List IgnoreRule := []
  flaws : List (Nat × IgnoreFlaw) := []

namespace IgnoreFile

/-- The lines of a content, without their ends. -/
def byteLines : List UInt8 → List (List UInt8)
  | [] => [[]]
  | b :: bs =>
      if b = 10 then [] :: byteLines bs
      else
        match b, bs with
        | 13, 10 :: _ => byteLines bs
        | _, _ =>
            match byteLines bs with
            | line :: lines => (b :: line) :: lines
            | [] => [[b]]

/-- The file of some lines, of which the first has a number. A byte order mark at the start of a file
does not count. -/
def ofLines : (number : Nat) → List (List UInt8) → IgnoreFile
  | _, [] => {}
  | number, line :: lines =>
      match textOfBytes? line.toByteArray with
      | none => { flaws := [(number, .notText)] }
      | some text =>
          let more := ofLines (number + 1) lines
          match IgnoreRule.ofLine (if number = 1 then text.dropWhile (· = '\ufeff') else text) with
          | .ok none => more
          | .ok (some rule) => { more with rules := rule :: more.rules }
          | .error flaw => { more with flaws := (number, flaw) :: more.flaws }

def ofContent (content : ByteArray) : IgnoreFile :=
  ofLines 1 (byteLines content.toList)

/-- The faults of a file that are reported. That it is not text is reported only along with others. -/
def faults (f : IgnoreFile) (path : Path) : List IgnoreFault :=
  match f.flaws with
  | [(_, .notText)] => []
  | flaws => flaws.map fun (line, flaw) => ⟨path, some line, flaw⟩

/-- What the last rule that speaks of a path says. -/
def verdict? (f : IgnoreFile) (path : List UInt8) (isDirectory : Bool) : Option IgnoreVerdict :=
  (f.rules.reverse.find? (·.speaksOf path isDirectory)).map fun rule =>
    if rule.keeps then .kept else .ignored

end IgnoreFile

end ScopeLint
