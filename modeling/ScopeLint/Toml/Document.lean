import ScopeLint.Toml.Value

/-!
# Putting tables together

The lines of a settings file say where their values go: a key may have several parts, and a header
names the table that the lines below it fill. This module puts the values in their places and refuses
what would define a thing twice.

A table that only its subtables or dotted keys have brought about is *implicit*; a header may still
come to define it, unless dotted keys made it. Such a table then counts as written at its header.
-/

namespace ScopeLint.Toml

abbrev Key := List Char

/-- What an entry of a table under construction holds: a value, a table, or the tables that headers
in double brackets have begun. -/
inductive Item where
  | value (v : Toml)
  | table (implicit dotted : Bool) (entries : List (Key × Item))
  | tables (elements : List (List (Key × Item)))

abbrev Entries := List (Key × Item)

/-- Replace the item at a key that is present. -/
def replaceItem (key : Key) (item : Item) (entries : Entries) : Entries :=
  entries.map fun entry => if entry.1 = key then (key, item) else entry

def removeItem (key : Key) (entries : Entries) : Entries :=
  entries.filter fun entry => entry.1 ≠ key

/-- Replace the last element of a list. -/
def replaceLast {α : Type} (a : α) (as : List α) : List α :=
  as.dropLast ++ [a]

/-- Enter a value under a dotted key: below the tables in `path`, at `key`. -/
def insertDotted (key : Key) (v : Toml) : (path : List Key) → Entries → Option Entries
  | [], entries =>
      if (entries.lookup key).isSome then none else some (entries ++ [(key, .value v)])
  | part :: path, entries =>
      match entries.lookup part with
      | none =>
          (insertDotted key v path []).map fun below =>
            entries ++ [(part, .table true true below)]
      | some (.table implicit dotted below) =>
          if !implicit || (path.isEmpty && !dotted) then none
          else
            (insertDotted key v path below).map fun below =>
              replaceItem part (.table implicit dotted below) entries
      | some (.tables elements) =>
          if path.isEmpty then none
          else
            (insertDotted key v path (elements.getLast?.getD [])).map fun last =>
              replaceItem part (.tables (replaceLast last elements)) entries
      | some (.value _) => none

/-- A line that gives a value: the parts of its key before the last, the last, and the value. -/
structure Setting where
  path : List Key
  key : Key
  value : Toml

def insertSettings : List Setting → Entries → Option Entries
  | [], entries => some entries
  | s :: settings, entries =>
      match insertDotted s.key s.value s.path entries with
      | some entries => insertSettings settings entries
      | none => none

/-- Change the table that a header leads to through `path`. -/
def atPath (change : Entries → Option Entries) : (path : List Key) → Entries → Option Entries
  | [], entries => change entries
  | part :: path, entries =>
      match entries.lookup part with
      | none =>
          (atPath change path []).map fun below => entries ++ [(part, .table true false below)]
      | some (.table implicit dotted below) =>
          (atPath change path below).map fun below =>
            replaceItem part (.table implicit dotted below) entries
      | some (.tables elements) =>
          (atPath change path (elements.getLast?.getD [])).map fun last =>
            replaceItem part (.tables (replaceLast last elements)) entries
      | some (.value _) => none

/-- Define a table at `key` with the settings below its header. -/
def defineTable (key : Key) (settings : List Setting) (entries : Entries) : Option Entries :=
  match entries.lookup key with
  | none =>
      (insertSettings settings []).map fun body => entries ++ [(key, .table false false body)]
  | some (.table true false below) =>
      (insertSettings settings below).map fun body =>
        removeItem key entries ++ [(key, .table false false body)]
  | some _ => none

/-- Append a table to the list at `key` with the settings below its header. -/
def appendTable (key : Key) (settings : List Setting) (entries : Entries) : Option Entries :=
  match entries.lookup key with
  | none => (insertSettings settings []).map fun body => entries ++ [(key, .tables [body])]
  | some (.tables elements) =>
      (insertSettings settings []).map fun body =>
        replaceItem key (.tables (elements ++ [body])) entries
  | some _ => none

/-- A header with the settings below it. -/
structure Section where
  path : List Key
  key : Key
  isList : Bool
  settings : List Setting

def addSection (s : Section) : Entries → Option Entries :=
  atPath (if s.isList then appendTable s.key s.settings else defineTable s.key s.settings) s.path

def addSections : List Section → Entries → Option Entries
  | [], entries => some entries
  | s :: sections, entries =>
      match addSection s entries with
      | some entries => addSections sections entries
      | none => none

mutual

def itemValue : Item → Toml
  | .value v => v
  | .table _ _ entries => .table (entryValues entries)
  | .tables elements => .tables (elementValues elements)

def entryValues : List (Key × Item) → List (Key × Toml)
  | [] => []
  | (key, item) :: entries => (key, itemValue item) :: entryValues entries

def elementValues : List (List (Key × Item)) → List Toml
  | [] => []
  | entries :: elements => .table (entryValues entries) :: elementValues elements

end

/-- The table that settings on one line define. -/
def inlineTable? (settings : List Setting) : Option Toml :=
  (insertSettings settings []).map fun entries => .table (entryValues entries)

/-- The table of a whole file: the settings before the first header, then the sections. -/
def document? (settings : List Setting) (sections : List Section) : Option (List (Key × Toml)) :=
  ((insertSettings settings []).bind (addSections sections)).map entryValues

end ScopeLint.Toml
