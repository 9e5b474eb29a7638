import ScopeLint.Ignore.Rules

/-!
# The ignore file of a user

Besides the ignore files of a project, a user may have one of their own, which counts in every
repository. The settings of the user name it under the key `excludesfile`; without that key it stands
at a fixed place below the home directory. A setting is looked for anywhere in a settings file, whatever
section it stands in.
-/

namespace ScopeLint.Personal

def isSpace (b : UInt8) : Bool :=
  b = 32 || (9 ≤ b && b ≤ 13)

def lineFeed : UInt8 := 10

def quoteMark : UInt8 := 34

def equalsSign : UInt8 := 61

/-- The key that names the file, in any case. -/
def key : List UInt8 := "excludesfile".toUTF8.toList

def lower (b : UInt8) : UInt8 :=
  if 65 ≤ b && b ≤ 90 then b + 32 else b

/-- Whether a line ends here, or after blanks. -/
def endsLine (bs : List UInt8) : Bool :=
  (bs.takeWhile isSpace).contains lineFeed || (bs.dropWhile isSpace).isEmpty

/-- Whether a line ends here, or after blanks and a quote. -/
def endsQuoted (bs : List UInt8) : Bool :=
  endsLine bs ||
    match bs.dropWhile isSpace with
    | b :: more => b = quoteMark && endsLine more
    | [] => false

/-- The word that begins here, if it ends the line; a quote at its end does not count. -/
def lastWord? (bs : List UInt8) : Option (List UInt8) :=
  let word := bs.takeWhile fun b => !isSpace b
  let rest := bs.dropWhile fun b => !isSpace b
  if 2 ≤ word.length && word.getLast? = some quoteMark && endsLine rest then some word.dropLast
  else if !word.isEmpty && endsQuoted rest then some word
  else none

/-- The value that begins here; a quote in front of it does not count, unless it is all there is. -/
def value? (bs : List UInt8) : Option (List UInt8) :=
  match bs with
  | b :: more =>
      if b = quoteMark then (lastWord? (more.dropWhile isSpace)).orElse fun _ => lastWord? bs
      else lastWord? bs
  | [] => none

/-- The value of the setting that begins at the start of a line. -/
def setting? (line : List UInt8) : Option (List UInt8) :=
  let bs := line.dropWhile isSpace
  if (bs.take key.length).map lower = key then
    match (bs.drop key.length).dropWhile isSpace with
    | b :: rest => if b = equalsSign then value? (rest.dropWhile isSpace) else none
    | [] => none
  else none

/-- The file that a settings file names. The home directory stands for every tilde in its path. -/
def namedFile? (home : Path) (content : ByteArray) : Option Path :=
  let bytes := content.toList
  ((bytes :: Text.suffixesAfter (· = lineFeed) bytes).findSome? setting?).bind fun value =>
    (textOfBytes? value.toByteArray).map fun text =>
      ⟨text.flatMap fun c => if c = '~' then home.chars else [c]⟩

/-- The path of the user's ignore file. -/
def ignorePath (fs : FileSystem) (home : Path) : Path :=
  let settings := [".gitconfig", ".config/git/config"].map fun name => home.join (.ofString name)
  let named := settings.findSome? fun path => (fs.bytes? path).bind (namedFile? home)
  named.getD (home.join (.ofString ".config/git/ignore"))

/-- The user's ignore file. -/
def ignoreFile (fs : FileSystem) : IgnoreFile :=
  match fs.home.bind fun home => fs.bytes? (ignorePath fs home) with
  | some content => IgnoreFile.ofContent content
  | none => {}

/-- A path as the user's ignore file sees it: what follows the spelling of the current directory in
it, without a slash in front. -/
def seen (current path : Path) : List Char :=
  match Text.stripPrefix? current.chars path.chars with
  | some ('/' :: rest) => rest
  | some rest => rest
  | none => path.chars

/-- What the user's ignore file says about a path. -/
def verdict? (fs : FileSystem) (path : Path) (isDirectory : Bool) : Option IgnoreVerdict :=
  (ignoreFile fs).verdict? (String.ofList (seen fs.current path)).toUTF8.toList isDirectory

end ScopeLint.Personal
