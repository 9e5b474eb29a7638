import ScopeLint.Console
import ScopeLint.Proofs.JsonText

/-!
# Reports are read back

`Given` says that the members of an object give the fields of a record in their order, where some may be
left out. Such an object is read as the values that it gives, so for each record it is enough to name
these values. A report whose numbers fit in 64 bits is read back from either layout.
-/

namespace ScopeLint

namespace Json

variable {fields all : List Field} {values : List (Option Json)} {members : List (List Char × Json)}
  {f : Field} {seen : List String} {value : Json}

/-- Whether members give the values of fields, in the order of the fields. A field without a value is
left out, which it must not be if it is required. -/
inductive Given : List Field → List (Option Json) → List (List Char × Json) → Prop
  | nil : Given [] [] []
  | some {f : Field} {value : Json} {fields : List Field} {values : List (Option Json)}
      {members : List (List Char × Json)} (fits : f.fault? value = none) (plain : value.Plain)
      (more : Given fields values members) :
      Given (f :: fields) (some value :: values) ((f.key.toList, value) :: members)
  | none {f : Field} {fields : List Field} {values : List (Option Json)}
      {members : List (List Char × Json)} (optional : f.presence ≠ .required)
      (more : Given fields values members) : Given (f :: fields) (none :: values) members

/-- A value that can be read may be given. -/
theorem Given.of {α : Type} {key : String} {content : Json → Except Fault α} {presence : Presence}
    {a : α} (read : content value = .ok a) (plain : value.Plain) (more : Given fields values members) :
    Given (.of key content presence :: fields) (Option.some value :: values)
      ((key.toList, value) :: members) := by
  refine .some ?_ plain more
  simp only [Field.of, read]

theorem Given.plain (given : Given fields values members) : (Json.object members).Plain := by
  refine .object members ?_
  induction given with
  | nil => exact nofun
  | some _ plain _ ih => exact List.forall_mem_cons.mpr ⟨plain, ih⟩
  | none _ _ ih => exact ih

/-- The fields of a record are found by their keys. -/
theorem find?_key (distinct : (all.map Field.key).Nodup) (member : f ∈ all) :
    all.find? (fun g => g.key.toList = f.key.toList) = some f := by
  induction all with
  | nil => cases member
  | cons g all ih =>
      rw [List.map_cons, List.nodup_cons] at distinct
      rcases List.mem_cons.mp member with rfl | later
      · exact List.find?_cons_of_pos (by simp)
      · rw [List.find?_cons_of_neg, ih distinct.2 later]
        intro same
        have same : g.key = f.key := String.toList_injective (of_decide_eq_true same)
        exact distinct.1 (same ▸ List.mem_map_of_mem later)

theorem membersFault?_cons (distinct : (all.map Field.key).Nodup) (member : f ∈ all)
    (fresh : f.key ∉ seen) (fits : f.fault? value = none) (plain : value.Plain) :
    membersFault? all seen ((f.key.toList, value) :: members) =
      membersFault? all (f.key :: seen) members := by
  have unseen : seen.contains f.key = false := by simpa using fresh
  rw [membersFault?, find?_key distinct member]
  · simp only [unseen, fits]
    rfl
  · rintro key content rfl
    cases plain

theorem membersFault?_nil (complete : ∀ f ∈ all, f.presence = .required → f.key ∈ seen) :
    membersFault? all seen [] = none := by
  have missing : all.find? (fun f => f.presence = .required && !seen.contains f.key) = none := by
    rw [List.find?_eq_none]
    intro f member
    have holds := complete f member
    simpa using holds
  rw [membersFault?, missing]
  rfl

theorem Given.membersFault? (given : Given fields values members)
    (distinct : (all.map Field.key).Nodup) (known : fields ⊆ all)
    (apart : (fields.map Field.key).Nodup) (fresh : ∀ f ∈ fields, f.key ∉ seen)
    (complete : ∀ f ∈ all, f.presence = .required → f.key ∈ seen ∨ f ∈ fields) :
    membersFault? all seen members = Option.none := by
  induction given generalizing seen with
  | nil =>
      refine membersFault?_nil fun f member required => ?_
      exact (complete f member required).resolve_right List.not_mem_nil
  | @some f value fields values members fits plain more ih =>
      rw [List.map_cons, List.nodup_cons] at apart
      obtain ⟨first, later⟩ := List.forall_mem_cons.mp fresh
      rw [membersFault?_cons distinct (known List.mem_cons_self) first fits plain]
      refine ih (fun g member => known (List.mem_cons_of_mem _ member)) apart.2 ?_ ?_
      · intro g member
        refine List.not_mem_cons_of_ne_of_not_mem ?_ (later g member)
        intro same
        exact apart.1 (same ▸ List.mem_map_of_mem member)
      · intro g member required
        rcases complete g member required with old | here
        · exact .inl (List.mem_cons_of_mem _ old)
        · rcases List.mem_cons.mp here with rfl | left
          · exact .inl List.mem_cons_self
          · exact .inr left
  | @none f fields values members optional more ih =>
      rw [List.map_cons, List.nodup_cons] at apart
      refine ih (fun g member => known (List.mem_cons_of_mem _ member)) apart.2
        (fun g member => fresh g (List.mem_cons_of_mem _ member)) ?_
      intro g member required
      refine (complete g member required).imp_right fun here => ?_
      rcases List.mem_cons.mp here with rfl | left
      · exact absurd required optional
      · exact left

/-- A key that no field has is not given. -/
theorem Given.lookup_eq_none (given : Given fields values members) {key : String}
    (other : key ∉ fields.map Field.key) : members.lookup key.toList = Option.none := by
  induction given with
  | nil => rfl
  | some _ _ _ ih =>
      rw [List.map_cons, List.mem_cons, not_or] at other
      rw [List.lookup_cons, beq_false_of_ne fun same => other.1 (String.toList_injective same)]
      exact ih other.2
  | none _ _ ih => exact ih fun member => other (List.mem_cons_of_mem _ member)

theorem Given.lookup (given : Given fields values members) (apart : (fields.map Field.key).Nodup) :
    (fields.map fun f => members.lookup f.key.toList) = values := by
  induction given with
  | nil => rfl
  | @some f value fields values members fits plain more ih =>
      rw [List.map_cons, List.nodup_cons] at apart
      rw [List.map_cons, List.lookup_cons, beq_self_eq_true, ← ih apart.2]
      refine congrArg _ (List.map_congr_left fun g member => ?_)
      rw [List.lookup_cons, beq_false_of_ne]
      intro same
      rw [← String.toList_injective same] at apart
      exact apart.1 (List.mem_map_of_mem member)
  | @none f fields values members optional more ih =>
      rw [List.map_cons, List.nodup_cons] at apart
      rw [List.map_cons, more.lookup_eq_none apart.1, ih apart.2]

/-- Whether a value is an object that gives the values of fields. -/
def Gives (j : Json) (fields : List Field) (values : List (Option Json)) : Prop :=
  ∃ members, j = .object members ∧ Given fields values members

theorem Gives.plain (gives : value.Gives fields values) : value.Plain := by
  obtain ⟨members, rfl, given⟩ := gives
  exact given.plain

/-- An object that gives the fields of a record is read as the values that it gives. -/
theorem Gives.toFields (gives : value.Gives fields values) (distinct : (fields.map Field.key).Nodup)
    (access : Access) (record : String) : toFields access record fields value = .ok values := by
  obtain ⟨members, rfl, given⟩ := gives
  rw [Json.toFields, given.membersFault? distinct (List.Subset.refl _) distinct
    (fun _ _ => List.not_mem_nil) fun _ member _ => .inr member]
  simp only [given.lookup distinct]

theorem bind_ok {ε α β : Type} (a : α) (next : α → Except ε β) : (Except.ok a >>= next) = next a :=
  rfl

theorem toCount_ofNat {n : Nat} (small : n < Nat.pow 2 64) : toCount (.ofNat n) = .ok n := by
  have found : (Number.natural n).found? = some (.integer n) := if_pos small
  have positive : ¬ (n : Int) < 0 := by omega
  simp only [toCount, ofNat, found, if_neg positive, Int.toNat_natCast]

theorem toItems_map {α : Type} {item : Json → Except Fault α} {write : α → Json} {xs : List α}
    (each : ∀ x ∈ xs, item (write x) = .ok x) : toItems item (xs.map write) = .ok xs := by
  induction xs with
  | nil => rfl
  | cons x xs ih =>
      obtain ⟨first, later⟩ := List.forall_mem_cons.mp each
      rw [List.map_cons, toItems, first, ih later]

theorem toList_map {α : Type} {item : Json → Except Fault α} {write : α → Json} {xs : List α}
    (each : ∀ x ∈ xs, item (write x) = .ok x) : toList item (.array (xs.map write)) = .ok xs :=
  toItems_map each

theorem plain_map {α : Type} {write : α → Json} {xs : List α} (each : ∀ x ∈ xs, (write x).Plain) :
    (Json.array (xs.map write)).Plain :=
  .array _ (List.forall_mem_map.mpr each)

end Json

open Json (Access Given Gives bind_ok toCount toCount_ofNat toList toList_map toOption plain_map)

/-! ## The records of a report -/

theorem Severity.ofJson_toJson (access : Access) (s : Severity) :
    Severity.ofJson access s.toJson = .ok s := by
  cases s <;> rfl

theorem textOfJson_ofString (s : String) : textOfJson (.ofString s) = .ok s :=
  congrArg Except.ok String.ofList_toList

namespace Location

/-- Whether the numbers of a location fit in 64 bits. -/
structure Fits (l : Location) : Prop where
  line : l.line < Nat.pow 2 64
  column : l.column < Nat.pow 2 64
  offset : l.offset < Nat.pow 2 64
  length : l.length < Nat.pow 2 64

variable {l : Location}

theorem Fits.gives (fits : l.Fits) : l.toJson.Gives fields
    [some l.file.toJson, some (.ofNat l.line), some (.ofNat l.column), some (.ofNat l.offset),
      some (.ofNat l.length)] := by
  have file : Path.ofJson l.file.toJson = .ok l.file := rfl
  refine ⟨_, rfl, .of file (.string _) ?_⟩
  refine .of (toCount_ofNat fits.line) (.natural _) (.of (toCount_ofNat fits.column) (.natural _) ?_)
  exact .of (toCount_ofNat fits.offset) (.natural _) (.of (toCount_ofNat fits.length) (.natural _) .nil)

theorem Fits.ofJson_toJson (fits : l.Fits) (access : Access) : ofJson access l.toJson = .ok l := by
  have file : Path.ofJson l.file.toJson = .ok l.file := rfl
  simp only [ofJson, fits.gives.toFields (by decide), bind_ok, file, toCount_ofNat fits.line,
    toCount_ofNat fits.column, toCount_ofNat fits.offset, toCount_ofNat fits.length]
  rfl

end Location

namespace Note

variable {n : Note}

theorem gives (fits : n.location.Fits) (access : Access) : n.toJson.Gives (fields access)
    [some n.location.toJson, some (.ofString n.message)] := by
  refine ⟨_, rfl, .of (fits.ofJson_toJson access) fits.gives.plain ?_⟩
  exact .of (textOfJson_ofString n.message) (.string _) .nil

theorem ofJson_toJson (fits : n.location.Fits) (access : Access) : ofJson access n.toJson = .ok n := by
  simp only [ofJson, (gives fits access).toFields (by cases access <;> decide), bind_ok,
    fits.ofJson_toJson access, textOfJson_ofString]
  rfl

end Note

namespace Help

theorem gives (message : String) :
    (toJson message).Gives fields [some (.ofString message)] :=
  ⟨_, rfl, .of (textOfJson_ofString message) (.string _) .nil⟩

theorem ofJson_toJson (access : Access) (message : String) :
    ofJson access (toJson message) = .ok message := by
  simp only [ofJson, (gives message).toFields (by decide)]
  exact textOfJson_ofString message

/-- Help that may be absent, as it is written. -/
def toJson? (help : Option String) : Json :=
  match help with
  | some message => toJson message
  | none => .null

theorem plain (help : Option String) : (toJson? help).Plain := by
  cases help with
  | none => exact .null
  | some message => exact (gives message).plain

theorem toOption_toJson (access : Access) (help : Option String) :
    toOption (ofJson access) (toJson? help) = .ok help := by
  cases help with
  | none => rfl
  | some message =>
      have read := ofJson_toJson access message
      simp only [toJson?, toJson] at read ⊢
      rw [toOption, read]
      exact nofun

end Help

namespace Finding

/-- Whether the numbers of a finding fit in 64 bits. -/
structure Fits (f : Finding) : Prop where
  location : f.location.Fits
  notes : ∀ note ∈ f.notes, note.location.Fits

variable {f : Finding}

theorem Fits.notes_toList (fits : f.Fits) (access : Access) :
    toList (Note.ofJson access) (.array (f.notes.map Note.toJson)) = .ok f.notes :=
  toList_map fun note member => Note.ofJson_toJson (fits.notes note member) access

/-- The notes as they are written: not at all if there are none. -/
def notesJson? (f : Finding) : Option Json :=
  if f.notes.isEmpty then none else some (.array (f.notes.map Note.toJson))

theorem Fits.gives (fits : f.Fits) (access : Access) : f.toJson.Gives (fields access)
    [some (.ofString f.code), some (.ofString f.rule), some f.severity.toJson, some f.location.toJson,
      some (.ofString f.message), some (Help.toJson? f.help), f.notesJson?] := by
  have notes : Given [.of "labels" (toList (Note.ofJson access)) .defaulted] [f.notesJson?]
      (if f.notes.isEmpty then [] else [("labels".toList, .array (f.notes.map Note.toJson))]) := by
    unfold notesJson?
    split
    · exact .none nofun .nil
    · refine .of (fits.notes_toList access) (plain_map fun note member => ?_) .nil
      exact (Note.gives (fits.notes note member) access).plain
  refine ⟨_, rfl, .of (textOfJson_ofString f.code) (.string _) ?_⟩
  refine .of (textOfJson_ofString f.rule) (.string _) ?_
  refine .of (f.severity.ofJson_toJson access) (.string _) ?_
  refine .of (fits.location.ofJson_toJson access) fits.location.gives.plain ?_
  refine .of (textOfJson_ofString f.message) (.string _) ?_
  exact .of (Help.toOption_toJson access f.help) (Help.plain f.help) notes

theorem Fits.ofJson_toJson (fits : f.Fits) (access : Access) : ofJson access f.toJson = .ok f := by
  have notes : toList (Note.ofJson access) (f.notesJson?.getD (.array [])) = .ok f.notes := by
    unfold notesJson?
    split
    · rename_i empty
      rw [List.isEmpty_iff.mp empty]
      rfl
    · exact fits.notes_toList access
  simp only [ofJson, (fits.gives access).toFields (by cases access <;> decide), bind_ok,
    textOfJson_ofString, Severity.ofJson_toJson, fits.location.ofJson_toJson access, Option.getD_some,
    Help.toOption_toJson, notes]
  rfl

end Finding

namespace Report

/-- Whether the numbers of a report fit in 64 bits. -/
structure Fits (r : Report) : Prop where
  findings : ∀ f ∈ r.findings, f.Fits
  filesChecked : r.filesChecked < Nat.pow 2 64

variable {r : Report}

theorem Fits.findings_toList (fits : r.Fits) (access : Access) :
    toList (Finding.ofJson access) (.array (r.findings.map Finding.toJson)) = .ok r.findings :=
  toList_map fun f member => (fits.findings f member).ofJson_toJson access

theorem Fits.gives (fits : r.Fits) (access : Access) : r.toJson.Gives (fields access)
    [some (.array (r.findings.map Finding.toJson)), some (.ofNat r.filesChecked)] := by
  have plain := plain_map fun f member => ((fits.findings f member).gives access).plain
  refine ⟨_, rfl, .of (fits.findings_toList access) plain ?_⟩
  exact .of (toCount_ofNat fits.filesChecked) (.natural _) .nil

theorem Fits.ofJson_toJson (fits : r.Fits) (access : Access) : ofJson access r.toJson = .ok r := by
  simp only [ofJson, (fits.gives access).toFields (by cases access <;> decide), bind_ok,
    fits.findings_toList access, toCount_ofNat fits.filesChecked]
  rfl

theorem Fits.plain (fits : r.Fits) : r.toJson.Plain :=
  (fits.gives .along).plain

/-- A report whose numbers fit in 64 bits is read back from its compact text, and from the text that is
shown of it. -/
theorem decode_written (r : Report) (fits : r.Fits) :
    Json.decode ofJson r.toJson.compact = .ok r ∧
      ∀ draw, Json.decode ofJson (Format.json.render draw r).toList = .ok r := by
  have shown : ∀ draw, (Format.json.render draw r).toList = r.toJson.indented 0 ++ ['\n'] := by
    intro draw
    rw [Format.render, jsonText, String.toList_append, String.toList_ofList]
    rfl
  refine ⟨?_, fun draw => ?_⟩
  · simp only [Json.decode, Json.read_compact fits.plain, fits.ofJson_toJson .along]
    rfl
  · simp only [Json.decode, shown, Json.read_indented fits.plain, fits.ofJson_toJson .along]
    rfl

/-- A report with quotes, backslashes, controls and characters outside the basic plane in its texts, a
note, no help and then help but no notes, and the greatest numbers that fit. -/
def sampleReport : Report where
  findings :=
    [{ code := "HL001", rule := "a\"b\\", severity := .warning
       location := ⟨⟨['/', '\x00', '\n', '\x7f']⟩, 1, 18446744073709551615, 0, 0⟩
       message := "\t\x1b\r😀", notes := [⟨⟨⟨[]⟩, 18446744073709551615, 1, 0, 7⟩, "é/\x08\x0c"⟩] },
      { code := "", rule := "", severity := .error, location := ⟨⟨['.']⟩, 0, 0, 0, 0⟩, message := ""
        help := some "\x01" }]
  filesChecked := 18446744073709551615

theorem sampleReport_fits : sampleReport.Fits := by
  refine ⟨List.forall_mem_cons.mpr ⟨⟨?_, ?_⟩, List.forall_mem_singleton.mpr ⟨?_, nofun⟩⟩, by decide⟩
  · exact ⟨by decide, by decide, by decide, by decide⟩
  · exact List.forall_mem_singleton.mpr ⟨by decide, by decide, by decide, by decide⟩
  · exact ⟨by decide, by decide, by decide, by decide⟩

theorem decode_written_sample : sampleReport.Fits ∧
    Json.decode ofJson sampleReport.toJson.compact = .ok sampleReport ∧
      ∀ draw, Json.decode ofJson (Format.json.render draw sampleReport).toList = .ok sampleReport :=
  ⟨sampleReport_fits, decode_written sampleReport sampleReport_fits⟩

end Report

end ScopeLint
