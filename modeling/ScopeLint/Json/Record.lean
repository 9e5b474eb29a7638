import ScopeLint.Json.Reader

/-!
# Reading records from JSON

A record is given as an object, or as an array of its fields in order. Values are judged in the order
in which they are written, and the first fault is reported; fields that are missing come last. Keys
that no field has are skipped, whatever their value.

A value may be at hand as a whole, or be read along a text. What does not belong where it stands, such
as an item too many, is a misfit of a whole value, but along a text it is a fault of the text.
-/

namespace ScopeLint.Json

/-- Why a text does not give a value of the wanted type. -/
inductive Fault where
  | malformed
  | misfit (cause : Misfit)
  deriving DecidableEq, Repr

/-- How a value is come by: it is at hand as a whole, or it is read along a text. -/
inductive Access where
  | whole
  | along
  deriving DecidableEq, Repr

/-- The fault of something that does not belong where it stands. -/
def Access.misplaced (access : Access) (cause : Misfit) : Fault :=
  match access with
  | whole => .misfit cause
  | along => .malformed

/-- What a value is, if its text gives one. -/
def found? : Json → Option Found
  | null => some .null
  | bool b => some (.boolean b)
  | number n => n.found?
  | string s => some (.string s)
  | array _ => some .sequence
  | object _ => some .map
  | halfPair => none
  | unkeyed _ _ => none
  | cut => none

/-- The fault of a value that stands in place of something else. -/
def mismatch (wanted : String) (j : Json) : Fault :=
  match j.found? with
  | some found => .misfit (.type found wanted)
  | none => .malformed

/-- Read a count that fits in 64 bits. -/
def toCount (j : Json) : Except Fault Nat :=
  match j with
  | number n =>
      match n.found? with
      | some (.integer i) =>
          if i < 0 then .error (.misfit (.value (.integer i) "usize")) else .ok i.toNat
      | _ => .error (mismatch "usize" j)
  | _ => .error (mismatch "usize" j)

/-- Read a string, called by the name it has in complaints. -/
def toText (wanted : String) : Json → Except Fault (List Char)
  | string s => .ok s
  | j => .error (mismatch wanted j)

def toItems {α : Type} (item : Json → Except Fault α) : List Json → Except Fault (List α)
  | [] => .ok []
  | j :: js =>
      match item j with
      | .error fault => .error fault
      | .ok a =>
          match toItems item js with
          | .error fault => .error fault
          | .ok as => .ok (a :: as)

def toList {α : Type} (item : Json → Except Fault α) : Json → Except Fault (List α)
  | array items => toItems item items
  | j => .error (mismatch "a sequence" j)

def toOption {α : Type} (content : Json → Except Fault α) : Json → Except Fault (Option α)
  | null => .ok none
  | j =>
      match content j with
      | .ok a => .ok (some a)
      | .error fault => .error fault

/-- Whether a field may be left out: never, from an object only, or also from the end of an array. -/
inductive Presence where
  | required
  | optional
  | defaulted
  deriving DecidableEq, Repr

/-- A field of a record: its key, what a value for it has to satisfy, and whether it may be absent. -/
structure Field where
  key : String
  fault? : Json → Option Fault
  presence : Presence := .required

def Field.of {α : Type} (key : String) (content : Json → Except Fault α)
    (presence : Presence) : Field where
  key
  fault? := fun j =>
    match content j with
    | .ok _ => none
    | .error fault => some fault
  presence

/-- The first fault among the members of an object, of which the keys `seen` have been met. -/
def membersFault? (fields : List Field) : (seen : List String) → List (List Char × Json) →
    Option Fault
  | seen, [] =>
      (fields.find? fun f => f.presence = .required && !seen.contains f.key).map fun f =>
        .misfit (.missingField f.key)
  | _, (_, unkeyed _ _) :: _ => some .malformed
  | seen, (key, value) :: members =>
      match fields.find? (·.key.toList = key) with
      | none => if value.isIntact then membersFault? fields seen members else some .malformed
      | some f =>
          if seen.contains f.key then some (.misfit (.duplicateField f.key))
          else
            match f.fault? value with
            | some fault => some fault
            | none => membersFault? fields (f.key :: seen) members

/-- The first fault among the items that give the remaining fields of a record, of which `count` have
been read. -/
def itemsFault? (access : Access) (record : String) (total : Nat) :
    (count : Nat) → List Field → List Json → Option Fault
  | _, [], [] => none
  | count, [], item :: items => some (access.misplaced (.tooLong (count + (item :: items).length)))
  | count, f :: fields, [] =>
      if f.presence = .defaulted then itemsFault? access record total (count + 1) fields []
      else some (.misfit (.length count record total))
  | count, f :: fields, item :: items =>
      match f.fault? item with
      | some fault => some fault
      | none => itemsFault? access record total (count + 1) fields items

/-- The values of the fields of a record, in their order. -/
def toFields (access : Access) (record : String) (fields : List Field) (j : Json) :
    Except Fault (List (Option Json)) :=
  match j with
  | object members =>
      match membersFault? fields [] members with
      | some fault => .error fault
      | none => .ok (fields.map fun f => members.lookup f.key.toList)
  | array items =>
      match itemsFault? access record fields.length 0 fields items with
      | some fault => .error fault
      | none => .ok (fields.mapIdx fun i _ => items[i]?)
  | _ => .error (mismatch s!"struct {record}" j)

end ScopeLint.Json
