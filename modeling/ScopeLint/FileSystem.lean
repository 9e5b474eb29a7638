import ScopeLint.Path

/-!
# File systems

A snapshot of a file system: a table of files and directories by place, the current directory, and the
home directory of the user if there is one.
A place is the list of names that leads from the root to a node; unlike a path it has one spelling.
Paths are resolved component by component, so `a/../b` is found only if `a` is a directory, and a path
that ends in a slash only leads to directories.
-/

namespace ScopeLint

/-- The names on the way from the root to a node. -/
abbrev Place := List (List Char)

/-- What stands at a place. -/
inductive Node where
  | file (content : ByteArray)
  | directory

/-- Why a path leads nowhere. -/
inductive Absence where
  | notFound
  | notDirectory
  deriving DecidableEq, Repr

def Absence.message : Absence → String
  | notFound => "No such file or directory (os error 2)"
  | notDirectory => "Not a directory (os error 20)"

structure FileSystem where
  nodes : List (Place × Node) := []
  current : Path := ⟨['/']⟩
  home : Option Path := none

namespace FileSystem

/-- The node at a place; the root is always a directory. -/
def node? (fs : FileSystem) : Place → Option Node
  | [] => some .directory
  | place => fs.nodes.lookup place

def isDirectoryAt (fs : FileSystem) (place : Place) : Bool :=
  match fs.node? place with
  | some .directory => true
  | _ => false

/-- The content of the file at a place. -/
def file? (fs : FileSystem) (place : Place) : Option ByteArray :=
  match fs.node? place with
  | some (.file content) => some content
  | _ => none

/-- Follow components from a place. -/
def follow (fs : FileSystem) : Place → List Component → Except Absence Place
  | here, [] => .ok here
  | here, c :: cs =>
      if fs.isDirectoryAt here then
        match c with
        | .root => fs.follow [] cs
        | .current => fs.follow here cs
        | .parent => fs.follow here.dropLast cs
        | .name n =>
            if (fs.node? (here ++ [n])).isSome then fs.follow (here ++ [n]) cs else .error .notFound
      else .error .notDirectory

/-- The place a path leads to, seen from the current directory. -/
def resolve (fs : FileSystem) (p : Path) : Except Absence Place :=
  if p.chars = [] then .error .notFound
  else
    let whole := fs.current.join p
    match fs.follow [] whole.components with
    | .ok place =>
        if whole.endsInDirectory && !fs.isDirectoryAt place then .error .notDirectory else .ok place
    | .error absence => .error absence

def resolve? (fs : FileSystem) (p : Path) : Option Place :=
  (fs.resolve p).toOption

def contains (fs : FileSystem) (p : Path) : Bool :=
  (fs.resolve? p).isSome

/-- The bytes of the file a path leads to. -/
def bytes? (fs : FileSystem) (p : Path) : Option ByteArray :=
  (fs.resolve? p).bind fs.file?

def isFile (fs : FileSystem) (p : Path) : Bool :=
  (fs.bytes? p).isSome

/-- The absolute path of a place. -/
def pathOf (place : Place) : Path :=
  ⟨'/' :: Text.joinWith '/' place⟩

/-- The absolute path, without `.` and `..`, of what a path leads to. -/
def canonical? (fs : FileSystem) (p : Path) : Option Path :=
  (fs.resolve? p).map pathOf

/-- The places above a place, outermost first. -/
def placesAbove (place : Place) : List Place :=
  (List.range place.length).map place.take

/-- Put a node at a place, in place of what stood there. -/
def set (fs : FileSystem) (place : Place) (node : Node) : FileSystem :=
  { fs with nodes := fs.nodes.filter (·.1 ≠ place) ++ [(place, node)] }

/-- Put a node at a place and make the directories that lead to it. -/
def add (fs : FileSystem) (place : Place) (node : Node) : FileSystem :=
  let above := (placesAbove place).filter fun p => (fs.node? p).isNone
  (above.foldl (fun fs p => fs.set p .directory) fs).set place node

/-- Write a file; its directory has to exist, and no directory may stand in its place. -/
def write? (fs : FileSystem) (p : Path) (content : ByteArray) : Option FileSystem :=
  match fs.resolve? p with
  | some place => if fs.isDirectoryAt place then none else some (fs.set place (.file content))
  | none =>
      match p.parent?, p.fileName? with
      | some above, some name =>
          match fs.resolve? (if above.chars = [] then ⟨['.']⟩ else above) with
          | some place =>
              if fs.isDirectoryAt place then some (fs.set (place ++ [name]) (.file content)) else none
          | none => none
      | _, _ => none

end FileSystem

/-- The text of a content that is valid UTF-8. -/
def textOfBytes? (content : ByteArray) : Option (List Char) :=
  (String.fromUTF8? content).map (·.toList)

end ScopeLint
