import ScopeLint.CommandLine.Commands
import ScopeLint.Syntax.Listing

/-!
# The program

The files of the project are named on standard input, one path on a line. The concrete tree of a source
file is read from the listing beside it, named like the file with `.tree` after it; a source file
without a listing counts as one that does not parse.
-/

namespace ScopeLint.Program

/-- Source texts with the trees of their listings. -/
abbrev Trees := List (Dialect × List Char × Concrete)

/-- Trees by source text; the tree of any other text is a fault. -/
def grammarOf (trees : Trees) : Grammar := fun dialect source =>
  match trees.find? fun (d, s, _) => d = dialect && s = source with
  | some (_, _, tree) => tree
  | none => .node { kind := "ERROR", start := 0, stop := 0, field := none, mark := .error } []

/-- The content of a file, if it can be read. -/
def read? (path : String) : IO (Option ByteArray) := do
  try
    return some (← IO.FS.readBinFile path)
  catch _ => return none

/-- The lines of standard input. -/
partial def inputLines (input : IO.FS.Stream) : IO (List String) := do
  let line ← input.getLine
  if line.isEmpty then return []
  let line := String.ofList (line.toList.filter fun c => c != '\n' && c != '\r')
  return line :: (← inputLines input)

/-- The place of a path as the snapshot names it. -/
def placeOf (current path : Path) : Place :=
  (current.join path).components.filterMap fun
    | .name n => some n
    | _ => none

/-- Read the named files into a snapshot. -/
def load (current : Path) : List String → IO (FileSystem × Trees)
  | [] => return ({ current }, [])
  | name :: names => do
      let (fs, trees) ← load current names
      let path := Path.ofString name
      match ← read? name with
      | none => return (fs, trees)
      | some content =>
          let fs := fs.add (placeOf current path) (.file content)
          let tree := ((← read? (name ++ ".tree")).bind textOfBytes?).bind Concrete.ofListing?
          match Dialect.ofPath? path, textOfBytes? content, tree with
          | some dialect, some text, some tree => return (fs, (dialect, text, tree) :: trees)
          | _, _, _ => return (fs, trees)

/-- The files of the second snapshot that the first does not have with the same content. -/
def changed (before after : FileSystem) : List (Place × ByteArray) :=
  after.nodes.filterMap fun (place, node) =>
    match node with
    | .file content =>
        if (before.file? place).map (·.data) = some content.data then none
        else some (place, content)
    | .directory => none

/-- Whether the arguments ask to check sources. -/
def checks (arguments : List (List Char)) : Bool :=
  match CommandLine.parse arguments with
  | .ok { command := .check .., .. } => true
  | _ => false

/-- The title of a finding and a line for each place it points at. -/
def draw (d : Diagnostic) : String :=
  d.title ++ "\n" ++ String.join (d.markers.map fun m => "  | " ++ m.caption ++ "\n")

def usage : String :=
  "Usage: hoist-lint [OPTIONS] <COMMAND>\n"

def run (arguments : List (List Char)) : IO UInt32 := do
  let current := Path.ofString (toString (← IO.currentDir))
  let named ← if checks arguments then inputLines (← IO.getStdin) else pure ["hoist-lint.toml"]
  let (fs, trees) ← load current named
  let fs := fs.add (placeOf current ⟨[]⟩) .directory
  let fs := { fs with home := (← IO.getEnv "HOME").map Path.ofString }
  let settings := (← IO.getEnv "HOIST_LINT_CONFIG_DIR").map Path.ofString
  let (result, after) := CommandLine.run arguments fs (grammarOf trees) settings draw usage
  for (place, content) in changed fs after do
    IO.FS.writeBinFile (FileSystem.pathOf place).text content
  for warning in result.warnings do
    IO.eprintln s!"WARN {warning.shown}"
  IO.print result.output
  match result.error with
  | some message => IO.eprintln s!"Error: {message}"
  | none => pure ()
  return result.status.toUInt32

end ScopeLint.Program

def main (arguments : List String) : IO UInt32 :=
  ScopeLint.Program.run (arguments.map String.toList)
