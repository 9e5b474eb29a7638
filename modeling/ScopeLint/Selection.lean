import ScopeLint.Glob
import ScopeLint.Path
import ScopeLint.Text.Bytes

/-!
# Selection of files by patterns

Exclude patterns drop a file and include patterns, if there are any, keep only the files they match.
Patterns look at the path relative to the root. An exclude pattern also drops a file when its text
without `**` occurs in that path, written from the root with a leading slash.
-/

namespace ScopeLint

structure Selection where
  excludes : List Glob := []
  includes : List Glob := []

namespace Selection

/-- The patterns of a selection; exclude patterns are read first. -/
def ofPatterns (excludes includes : List (List Char)) : Except GlobError Selection := do
  let excludes ← excludes.mapM Glob.parse
  let includes ← includes.mapM Glob.parse
  return { excludes, includes }

/-- The literal text of a pattern. -/
def fragment (g : Glob) : List Char :=
  Text.delete ['*', '*'] g.source

/-- Whether an exclude pattern drops a relative path. -/
def drops (g : Glob) (relative : List Char) : Bool :=
  g.accepts relative ||
    (1 < Text.byteLength (fragment g) &&
      Text.contains (fragment g) ('/' :: relative.dropWhile (· = '/')))

/-- Whether a file below a root is left out. -/
def leavesOut (s : Selection) (root path : Path) : Bool :=
  let relative := (path.relativeTo root).chars
  s.excludes.any (drops · relative) ||
    (!s.includes.isEmpty && !s.includes.any (·.accepts relative))

end Selection

end ScopeLint
