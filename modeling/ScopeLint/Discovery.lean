import ScopeLint.Dialect
import ScopeLint.Ignore.Levels
import ScopeLint.Selection

/-!
# Discovery of source files

The source files below a directory. A file is found unless it, or a directory on the way to it, is
named `.git` or ignored; what stands above the directory where the search starts is never asked about,
though its ignore files count, and have to be in order.
-/

namespace ScopeLint

/-- A file that was found, with the path it is known by. -/
structure FoundFile where
  path : Path
  content : ByteArray

/-- The order of files: by path, component by component. -/
def FoundFile.comparePaths (f g : FoundFile) : Ordering :=
  compare f.path.key g.path.key

/-- Why a search cannot be made. -/
inductive SearchError where
  | absent (absence : Absence)
  | ignoreFiles (faults : List IgnoreFault)
  deriving DecidableEq, Repr

/-- The message about a search from a path. -/
def SearchError.message (path : Path) : SearchError → String
  | absent absence => s!"{path.text}: IO error for operation on {path.text}: {absence.message}"
  | ignoreFiles faults => String.intercalate "\n" (faults.map IgnoreFault.message)

namespace Discovery

/-- The places from just below `start` down to a place. -/
def way (start place : Place) : List Place :=
  (FileSystem.placesAbove place ++ [place]).drop (start.length + 1)

/-- The path of a place below the start, in the spelling of the root. -/
def pathBelow (root : Path) (start place : Place) : Path :=
  (place.drop start.length).foldl (fun p name => p.join ⟨name⟩) root

/-- Whether the search enters a place. -/
def enters (fs : FileSystem) (respectGit : Bool) (root : Path) (start place : Place) : Bool :=
  place.getLast? ≠ some ".git".toList &&
    IgnoreLevel.verdict? fs respectGit start place (pathBelow root start place) ≠ some .ignored

/-- Whether a place lies below the start of the search and is reached by it. -/
def reaches (fs : FileSystem) (respectGit : Bool) (root : Path) (start place : Place) : Bool :=
  start.isPrefixOf place && start.length < place.length &&
    (way start place).all (enters fs respectGit root start)

/-- The files below a directory. -/
def filesBelow (fs : FileSystem) (respectGit : Bool) (root : Path) (start : Place) :
    List FoundFile :=
  fs.nodes.filterMap fun (place, node) =>
    match node with
    | .file content =>
        if reaches fs respectGit root start place then some ⟨pathBelow root start place, content⟩ else none
    | .directory => none

/-- The source files of a root. A root that is a file is taken as it is, unless it is not a source
file. -/
def sourceFiles (fs : FileSystem) (respectGit : Bool) (selection : Selection) (root : Path) :
    Except SearchError (List FoundFile) :=
  match fs.resolve root with
  | .error absence => .error (.absent absence)
  | .ok start =>
      match fs.file? start with
      | some content => .ok (if (Dialect.ofPath? root).isSome then [⟨root, content⟩] else [])
      | none =>
          match IgnoreLevel.faultsAbove fs respectGit start with
          | [] =>
              .ok ((filesBelow fs respectGit root start).filter fun f =>
                (Dialect.ofPath? f.path).isSome && !selection.leavesOut root f.path)
          | faults => .error (.ignoreFiles faults)

end Discovery

end ScopeLint
