import ScopeLint.Configuration
import ScopeLint.FileSystem

/-!
# Where the configuration comes from

A file named by the user comes first. Otherwise the nearest settings file counts that is found in a
directory or above it, up to the directory that holds `.git`, then the file in the global directory,
and without any the configuration is the default one.
-/

namespace ScopeLint

inductive ConfigurationSource where
  | explicit (path : Path)
  | project (path : Path)
  | global (path : Path)
  | builtIn
  deriving DecidableEq, Repr

namespace ConfigurationSource

def path? : ConfigurationSource → Option Path
  | explicit path => some path
  | project path => some path
  | global path => some path
  | builtIn => none

/-- The names of settings files, the preferred one first. -/
def fileNames : List Path :=
  [.ofString "hoist-lint.toml", .ofString ".hoist-lint.toml"]

/-- The settings file of a directory. -/
def inDirectory? (fs : FileSystem) (directory : Path) : Option Path :=
  (fileNames.map directory.join).find? fs.isFile

/-- The first settings file in a list of directories; none is searched after one that holds `.git`. -/
def nearest? (fs : FileSystem) : List Path → Option Path
  | [] => none
  | directory :: above =>
      match inDirectory? fs directory with
      | some path => some path
      | none =>
          if fs.contains (directory.join (.ofString ".git")) then none else nearest? fs above

/-- The settings file in the global directory. -/
def global? (fs : FileSystem) (globalDirectory : Option Path) : Option Path :=
  match globalDirectory with
  | some directory =>
      let path := directory.join (.ofString "config.toml")
      if fs.isFile path then some path else none
  | none => none

/-- Find the configuration for the sources in a directory. -/
def find (fs : FileSystem) (directory : Path) (named globalDirectory : Option Path) :
    ConfigurationSource :=
  match named with
  | some path => explicit path
  | none =>
      match nearest? fs directory.ancestors with
      | some path => project path
      | none =>
          match global? fs globalDirectory with
          | some path => global path
          | none => builtIn

/-- The directory that a search for the sources at a path begins in: that of a file, or the path
itself. It is made absolute as far as it leads anywhere. -/
def start (fs : FileSystem) (path : Path) : Path :=
  let directory := if fs.isFile path then path.parent?.getD ⟨['.']⟩ else path
  (fs.canonical? directory).getD directory

/-- Find the configuration for the sources at a path. -/
def forPath (fs : FileSystem) (path : Path) (named globalDirectory : Option Path) :
    ConfigurationSource :=
  find fs (start fs path) named globalDirectory

/-- Read the configuration; `none` if the file cannot be read or understood. -/
def load? (fs : FileSystem) (source : ConfigurationSource) : Option Configuration :=
  match source.path? with
  | none => some {}
  | some path =>
      match (fs.bytes? path).bind textOfBytes? with
      | some text => (Configuration.parse text).toOption
      | none => none

end ConfigurationSource

end ScopeLint
