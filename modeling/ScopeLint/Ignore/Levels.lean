import ScopeLint.Ignore.Personal

/-!
# The ignore files of directories

A directory may hold a `.ignore` file and, inside a repository, a `.gitignore` file; a repository may
have a list of exclusions of its own. A nearer directory decides before an outer one, and `.ignore`
before `.gitignore` before the exclusions before the ignore file of the user.

A search has a start. The ignore files of the directories above it count as well, and their faults end
the search, while faults at the start and below it are passed over.
-/

namespace ScopeLint

/-- The ignore files of a directory. -/
structure IgnoreLevel where
  own : IgnoreFile
  git : IgnoreFile
  gitExclude : IgnoreFile
  isRepository : Bool
  faults : List IgnoreFault

namespace IgnoreLevel

/-- An ignore file; one that is not there is empty. -/
def fileAt (fs : FileSystem) (path : Path) : IgnoreFile :=
  match fs.bytes? path with
  | some content => IgnoreFile.ofContent content
  | none => {}

/-- The first line of a content: `none` if there is no line, and no text if it is not valid. -/
def firstLine? (content : ByteArray) : Option (Option (List Char)) :=
  match content.toList with
  | [] => none
  | bytes => (IgnoreFile.byteLines bytes).head?.map fun line => textOfBytes? line.toByteArray

/-- The first line of the file at a path. There may be no such line, or a fault in its place. -/
def readFirstLine (fs : FileSystem) (path : Path) : Except (Option IgnoreFault) (List Char) :=
  match fs.resolve? path with
  | none => .error none
  | some place =>
      match fs.file? place with
      | none => .error (some ⟨path, none, .isDirectory⟩)
      | some content =>
          match firstLine? content with
          | some (some line) => .ok line
          | some none => .error (some ⟨path, none, .notText⟩)
          | none => .error none

/-- The directory with the data of a repository. Where `.git` is a file, it names a directory, in
which the file `commondir` names the one that is shared. -/
def gitDirectory (fs : FileSystem) (directory : Place) : Except (Option IgnoreFault) Path := do
  let git := (FileSystem.pathOf directory).join (.ofString ".git")
  if fs.isFile git then
    match Text.stripPrefix? "gitdir: ".toList (← readFirstLine fs git) with
    | none => throw none
    | some target =>
        let target : Path := ⟨target⟩
        let line ← readFirstLine fs (target.join (.ofString "commondir"))
        if line.head? = some '.' then return target.join ⟨line⟩ else return ⟨line⟩
  else return git

/-- The exclusions of a repository, and the faults in them or on the way to them. -/
def exclusions (fs : FileSystem) (directory : Place) : IgnoreFile × List IgnoreFault :=
  match gitDirectory fs directory with
  | .ok git =>
      let path := git.join (.ofString "info/exclude")
      let file := fileAt fs path
      (file, file.faults path)
  | .error fault => ({}, fault.toList)

/-- Whether a directory is the top of a repository. -/
def isRepositoryAt (fs : FileSystem) (directory : Place) : Bool :=
  [".git", ".jj"].any fun name => (fs.node? (directory ++ [name.toList])).isSome

/-- The ignore files of a directory. `respectGit` says whether `.gitignore` files count; if they do
not, then above the start of the search repositories do not count either. -/
def ofDirectory (fs : FileSystem) (respectGit aboveStart : Bool) (directory : Place) : IgnoreLevel :=
  let path := FileSystem.pathOf directory
  let ownPath := path.join (.ofString ".ignore")
  let gitPath := path.join (.ofString ".gitignore")
  let own := fileAt fs ownPath
  let git := if respectGit then fileAt fs gitPath else {}
  let (gitExclude, excludeFaults) := exclusions fs directory
  { own, git, gitExclude
    isRepository := (respectGit || !aboveStart) && isRepositoryAt fs directory
    faults := own.faults ownPath ++ git.faults gitPath ++ excludeFaults }

/-- The faults that end a search: those of the directories above its start, outermost first. -/
def faultsAbove (fs : FileSystem) (respectGit : Bool) (start : Place) : List IgnoreFault :=
  (FileSystem.placesAbove start).flatMap fun directory =>
    (ofDirectory fs respectGit true directory).faults

/-- The levels up to and including the innermost repository. -/
def withinRepository {α : Type} (level : α → IgnoreLevel) : List α → List α
  | [] => []
  | a :: more => if (level a).isRepository then [a] else a :: withinRepository level more

/-- The path from a directory to a place below it, in bytes. -/
def bytesBelow (directory place : Place) : List UInt8 :=
  (String.ofList (Text.joinWith '/' (place.drop directory.length))).toUTF8.toList

/-- What the ignore files say about a place, in a search from a start. Those of a repository and of
the user count only if there is a repository; the latter goes by the path that leads to the place. -/
def verdict? (fs : FileSystem) (respectGit : Bool) (start place : Place) (path : Path) :
    Option IgnoreVerdict :=
  let isDirectory := fs.isDirectoryAt place
  let levels := (FileSystem.placesAbove place).reverse.map fun directory =>
    (ofDirectory fs respectGit (directory.length < start.length) directory,
      bytesBelow directory place)
  let ask (file : IgnoreLevel → IgnoreFile) (level : IgnoreLevel × List UInt8) :=
    (file level.1).verdict? level.2 isDirectory
  let hasRepository := levels.any (·.1.isRepository)
  let inner := if hasRepository then withinRepository (·.1) levels else []
  (levels.findSome? (ask (·.own))).orElse fun _ =>
    (inner.findSome? (ask (·.git))).orElse fun _ =>
      (inner.findSome? (ask (·.gitExclude))).orElse fun _ =>
        if hasRepository then Personal.verdict? fs path isDirectory else none

end IgnoreLevel

end ScopeLint
