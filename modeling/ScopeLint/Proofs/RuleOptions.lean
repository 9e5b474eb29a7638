import ScopeLint.Catalogue
import ScopeLint.Proofs.ByteOrder
import ScopeLint.Proofs.Sorting

/-!
# The options of a rule

The options in the table of the rule are put in the order of their keys and taken one by one. `Taken` says
what comes of this: each option that fits sets the flag of a loop, and the first that does not fit is
complained about. In the order of the keys this is the one with the lowest bytes. A table has no key twice,
so the order in which it was written leaves no trace.
-/

namespace ScopeLint

/-- The key of the option that exempts a form of loop. -/
def LoopForm.optionKey : LoopForm → List Char
  | counting => "forStatement".toList
  | overKeys => "forInStatement".toList
  | overValues => "forOfStatement".toList

theorem LoopForm.optionKey_injective : Function.Injective optionKey := by
  intro form other
  cases form <;> cases other <;> decide

/-- The boolean that a value is. -/
def Toml.boolean? : Toml → Option Bool
  | boolean value => some value
  | _ => none

namespace Exemptions

namespace Changes

/-- The flag that is stated for a form of loop. -/
def get (c : Changes) : LoopForm → Option Bool
  | .counting => c.counting
  | .overKeys => c.overKeys
  | .overValues => c.overValues

/-- State the flag of a form of loop. -/
def put (c : Changes) (exempt : Bool) : LoopForm → Changes
  | .counting => { c with counting := some exempt }
  | .overKeys => { c with overKeys := some exempt }
  | .overValues => { c with overValues := some exempt }

@[simp] theorem get_put (c : Changes) (exempt : Bool) (form : LoopForm) :
    (c.put exempt form).get form = some exempt := by
  cases form <;> rfl

theorem get_put_of_ne (c : Changes) (exempt : Bool) {form other : LoopForm} (apart : form ≠ other) :
    (c.put exempt form).get other = c.get other := by
  cases form <;> cases other <;> simp_all [get, put]

end Changes

theorem covers_change (e : Exemptions) (c : Changes) (form : LoopForm) :
    (e.change c).covers form = (c.get form).getD (e.covers form) := by
  cases form <;> rfl

end Exemptions

namespace RuleSettings

open Exemptions (Changes)

variable {key : List Char} {v : Toml} {cause : Misfit} {c c' : Changes}
variable {entry : List Char × Toml} {entries : List (List Char × Toml)}

/-- Whether an option is one that the rule has, with a value that it can have. -/
def Fits (entry : List Char × Toml) : Prop :=
  (∃ form : LoopForm, entry.1 = form.optionKey) ∧ ∃ exempt, entry.2 = .boolean exempt

instance : DecidablePred Fits := fun entry =>
  decidable_of_iff ((∃ form ∈ [LoopForm.counting, .overKeys, .overValues], entry.1 = form.optionKey) ∧
      entry.2.boolean?.isSome) <| by
    refine and_congr ⟨fun ⟨form, _, known⟩ => ⟨form, known⟩, fun ⟨form, known⟩ => ⟨form, ?_, known⟩⟩ ?_
    · cases form <;> simp
    · cases entry.2 <;> simp [Toml.boolean?]

/-- What an option that does not fit is refused for: a key that the rule does not have, or else a value
that is no boolean. -/
inductive Refused (key : List Char) (v : Toml) : Misfit → Prop
  | unknown (other : ∀ form : LoopForm, key ≠ form.optionKey) :
      Refused key v (.unknownField (String.ofList key) optionKeys)
  | mistyped {form : LoopForm} (known : key = form.optionKey) (other : ∀ exempt, v ≠ .boolean exempt) :
      Refused key v (.type v.optionFound "a boolean")

/-- What comes of taking options one by one. -/
inductive Taken : Changes → List (List Char × Toml) → Except Misfit Changes → Prop
  | done {c : Changes} : Taken c [] (.ok c)
  | set {c : Changes} {entries : List (List Char × Toml)} {outcome : Except Misfit Changes}
      {form : LoopForm} {exempt : Bool} (later : Taken (c.put exempt form) entries outcome) :
      Taken c ((form.optionKey, .boolean exempt) :: entries) outcome
  | stopped {c : Changes} {entries : List (List Char × Toml)} {key : List Char} {v : Toml}
      {cause : Misfit} (refused : Refused key v cause) : Taken c ((key, v) :: entries) (.error cause)

/-! ## One option -/

theorem setExemption_boolean (c : Changes) (form : LoopForm) (exempt : Bool) :
    setExemption c form.optionKey (.boolean exempt) = .ok (c.put exempt form) := by
  cases form <;> rfl

theorem Refused.setExemption (refused : Refused key v cause) (c : Changes) :
    setExemption c key v = .error cause := by
  cases refused with
  | unknown other =>
      have apart : ∀ form : LoopForm, String.ofList key ≠ String.ofList form.optionKey :=
        fun form same => other form (String.ofList_inj.mp same)
      unfold RuleSettings.setExemption
      extract_lets flag
      clear_value flag
      split
      · exact absurd ‹_› (apart .counting)
      · exact absurd ‹_› (apart .overKeys)
      · exact absurd ‹_› (apart .overValues)
      · rfl
  | @mistyped form known other =>
      subst known
      cases v with
      | boolean exempt => exact absurd rfl (other exempt)
      | _ => cases form <;> rfl

theorem Refused.not_fits (refused : Refused key v cause) : ¬ Fits (key, v) := by
  rintro ⟨⟨form, known⟩, exempt, boolean⟩
  cases refused with
  | unknown other => exact other form known
  | mistyped _ other => exact other exempt boolean

/-- An option fits or is refused. -/
theorem fits_or_refused (key : List Char) (v : Toml) :
    (∃ (form : LoopForm) (exempt : Bool), (key, v) = (form.optionKey, .boolean exempt)) ∨
      ∃ cause, Refused key v cause := by
  by_cases known : ∃ form : LoopForm, key = form.optionKey
  · obtain ⟨form, rfl⟩ := known
    by_cases boolean : ∃ exempt, v = .boolean exempt
    · obtain ⟨exempt, rfl⟩ := boolean
      exact .inl ⟨form, exempt, rfl⟩
    · exact .inr ⟨_, .mistyped rfl fun exempt same => boolean ⟨exempt, same⟩⟩
  · exact .inr ⟨_, .unknown fun form same => known ⟨form, same⟩⟩

/-! ## A list of options -/

theorem takeAll_taken (c : Changes) (entries : List (List Char × Toml)) :
    Taken c entries (takeAll c entries) := by
  induction entries generalizing c with
  | nil => exact .done
  | cons entry entries ih =>
      obtain ⟨key, v⟩ := entry
      rw [takeAll, List.foldlM_cons]
      rcases fits_or_refused key v with ⟨form, exempt, same⟩ | ⟨cause, refused⟩
      · cases same
        rw [setExemption_boolean]
        exact .set (ih _)
      · rw [refused.setExemption]
        exact .stopped refused

/-- Where all options are taken they fit. -/
theorem Taken.fits (taken : Taken c entries (.ok c')) : ∀ entry ∈ entries, Fits entry := by
  generalize result : Except.ok c' = outcome at taken
  induction taken with
  | done => exact nofun
  | @set c entries outcome form exempt later ih =>
      exact List.forall_mem_cons.mpr ⟨⟨⟨form, rfl⟩, exempt, rfl⟩, ih result⟩
  | stopped refused => cases result

/-- Where an option is refused, those before it fit. -/
theorem Taken.error (taken : Taken c entries (.error cause)) :
    ∃ before key v after, entries = before ++ (key, v) :: after ∧ (∀ entry ∈ before, Fits entry) ∧
      Refused key v cause := by
  generalize result : Except.error cause = outcome at taken
  induction taken with
  | done => cases result
  | @set c entries outcome form exempt later ih =>
      obtain ⟨before, key, v, after, rfl, fits, refused⟩ := ih result
      refine ⟨(form.optionKey, .boolean exempt) :: before, key, v, after, rfl, ?_, refused⟩
      exact List.forall_mem_cons.mpr ⟨⟨⟨form, rfl⟩, exempt, rfl⟩, fits⟩
  | @stopped c entries key v cause refused =>
      cases result
      exact ⟨[], key, v, entries, rfl, by simp, refused⟩

/-! ## The order of the keys -/

variable {settings other : RuleSettings}

instance : Std.TransCmp compareKeys :=
  inferInstanceAs (Std.TransCmp (compareOn fun entry : List Char × Toml => entry.1.map Char.toNat))

theorem inKeyOrder_sortedFrom (settings : RuleSettings) :
    SortedFrom compareKeys settings.options settings.inKeyOrder :=
  mergeSort_sortedFrom settings.options

theorem inKeyOrder_perm (settings : RuleSettings) : settings.inKeyOrder.Perm settings.options :=
  (inKeyOrder_sortedFrom settings).perm

/-- The option that is refused has the lowest key of all that do not fit. -/
theorem lowest_of_refused {before after : List (List Char × Toml)}
    (split : settings.inKeyOrder = before ++ (key, v) :: after) (fits : ∀ entry ∈ before, Fits entry)
    (member : entry ∈ settings.options) (unfit : ¬ Fits entry) : Text.utf8 key ≤ Text.utf8 entry.1 := by
  have ascending := (inKeyOrder_sortedFrom settings).ascending
  have sorted : entry ∈ settings.inKeyOrder := (inKeyOrder_perm settings).mem_iff.mpr member
  rw [split] at ascending sorted
  rcases List.mem_append.mp sorted with early | late
  · exact absurd (fits entry early) unfit
  · rcases List.mem_cons.mp late with rfl | later
    · exact List.le_refl _
    · have above := (List.pairwise_cons.mp (List.pairwise_append.mp ascending).2.1).1 entry later
      exact Text.compare_codes_isLE_iff.mp above

theorem inKeyOrder_eq_of_perm (distinct : (settings.options.map (·.1)).Nodup)
    (same : other.options.Perm settings.options) : other.inKeyOrder = settings.inKeyOrder := by
  have apart : settings.options.Pairwise fun a b => compareKeys a b ≠ .eq := by
    refine (List.pairwise_map.mp distinct).imp fun apart equal => apart ?_
    exact Text.compare_codes_eq_iff.mp equal
  exact (mergeSort_eq_of_perm same.symm apart).symm

/-- Sorting leaves the options of one key in the order in which they are given. -/
theorem filter_inKeyOrder (settings : RuleSettings) (key : List Char) :
    settings.inKeyOrder.filter (·.1 = key) = settings.options.filter (·.1 = key) := by
  by_cases known : ∃ entry ∈ settings.options, entry.1 = key
  · obtain ⟨entry, member, rfl⟩ := known
    have same : ∀ other : List Char × Toml,
        decide (compareKeys entry other = .eq) = decide (other.1 = entry.1) := by
      intro other
      have equal : compareKeys entry other = .eq ↔ entry.1 = other.1 := Text.compare_codes_eq_iff
      rw [decide_eq_decide, equal, eq_comm]
    have stable := (inKeyOrder_sortedFrom settings).stable entry member
    simpa only [same] using stable
  · have absent : ∀ entry ∈ settings.options, ¬ decide (entry.1 = key) = true :=
      fun entry member same => known ⟨entry, member, of_decide_eq_true same⟩
    rw [List.filter_eq_nil_iff.mpr absent, List.filter_eq_nil_iff]
    intro entry member
    exact absent entry ((inKeyOrder_perm settings).mem_iff.mp member)

/-! ## The flags of a table -/

/-- The booleans that stand under a key. -/
def flagsUnder (key : List Char) (entries : List (List Char × Toml)) : List Bool :=
  (entries.filter (·.1 = key)).filterMap (·.2.boolean?)

/-- The flag that a table states under a key. A table has no key twice; if it had, the last one would
count. Without such a key the flag is set. -/
def flag (settings : RuleSettings) (key : List Char) : Bool :=
  (flagsUnder key settings.options).getLast?.getD true

/-- The flags that a table states, each under a key of its own. -/
def flags (settings : RuleSettings) : Exemptions where
  counting := settings.flag "forStatement".toList
  overKeys := settings.flag "forInStatement".toList
  overValues := settings.flag "forOfStatement".toList

theorem flagsUnder_cons_self (key : List Char) (exempt : Bool) (entries : List (List Char × Toml)) :
    flagsUnder key ((key, .boolean exempt) :: entries) = exempt :: flagsUnder key entries := by
  rw [flagsUnder, List.filter_cons_of_pos (by simp)]
  rfl

theorem flagsUnder_cons_of_ne {other : List Char} (apart : other ≠ key) (v : Toml)
    (entries : List (List Char × Toml)) :
    flagsUnder key ((other, v) :: entries) = flagsUnder key entries := by
  rw [flagsUnder, List.filter_cons_of_neg (by simpa using apart), flagsUnder]

theorem flagsUnder_of_absent (absent : ∀ v, (key, v) ∉ entries) : flagsUnder key entries = [] := by
  rw [flagsUnder, List.filter_eq_nil_iff.mpr, List.filterMap_nil]
  rintro ⟨other, v⟩ member same
  obtain rfl : other = key := of_decide_eq_true same
  exact absent v member

/-- Where no key stands twice, an option is the only one with its key. -/
theorem flagsUnder_of_mem {exempt : Bool} (distinct : (entries.map (·.1)).Nodup)
    (member : (key, .boolean exempt) ∈ entries) : flagsUnder key entries = [exempt] := by
  induction entries with
  | nil => cases member
  | cons entry entries ih =>
      obtain ⟨fresh, distinct⟩ := List.nodup_cons.mp distinct
      rcases List.mem_cons.mp member with rfl | later
      · have absent : ∀ v, (key, v) ∉ entries :=
          fun v member => fresh (List.mem_map.mpr ⟨_, member, rfl⟩)
        rw [flagsUnder_cons_self, flagsUnder_of_absent absent]
      · have apart : entry.1 ≠ key := by
          rintro rfl
          exact fresh (List.mem_map.mpr ⟨_, later, rfl⟩)
        exact (flagsUnder_cons_of_ne apart entry.2 entries).trans (ih distinct later)

/-- What is stated for a loop in the end is the last boolean under its key, or what was stated before. -/
theorem Taken.get_eq (taken : Taken c entries (.ok c')) (form : LoopForm) :
    c'.get form = (flagsUnder form.optionKey entries).getLast?.or (c.get form) := by
  generalize result : Except.ok c' = outcome at taken
  induction taken with
  | done =>
      cases result
      rfl
  | @set c entries outcome other exempt later ih =>
      rw [ih result]
      by_cases same : other = form
      · subst same
        rw [flagsUnder_cons_self, List.getLast?_cons, Changes.get_put]
        cases (flagsUnder other.optionKey entries).getLast? <;> rfl
      · have apart : other.optionKey ≠ form.optionKey := fun key => same (LoopForm.optionKey_injective key)
        rw [flagsUnder_cons_of_ne apart, Changes.get_put_of_ne c exempt same]
  | stopped refused => cases result

/-- What is taken of a table is what stands under its keys. -/
theorem get_of_taken (taken : Taken {} settings.inKeyOrder (.ok c)) (form : LoopForm) :
    c.get form = (flagsUnder form.optionKey settings.options).getLast? := by
  rw [taken.get_eq, flagsUnder, filter_inKeyOrder]
  cases form <;> exact Option.or_none

/-! ## The messages -/

/-- What is said of an option that does not fit. -/
inductive Complaint (key : List Char) (v : Toml) : String → Prop
  | unknown (other : ∀ form : LoopForm, key ≠ form.optionKey) :
      Complaint key v ("unknown field `" ++ String.ofList key ++
        "`, expected one of `forStatement`, `forInStatement`, `forOfStatement`")
  | mistyped {form : LoopForm} (known : key = form.optionKey) (other : ∀ exempt, v ≠ .boolean exempt) :
      Complaint key v ("invalid type: " ++ v.optionFound.describe ++ ", expected a boolean")

theorem message_unknownField (key : String) : (Misfit.unknownField key optionKeys).message =
    "unknown field `" ++ key ++
      "`, expected one of `forStatement`, `forInStatement`, `forOfStatement`" := by
  have words : "`, expected one of `forStatement`, `forInStatement`, `forOfStatement`" =
      "`, expected one of " ++ Misfit.listing optionKeys := by decide
  rw [words, ← String.append_assoc]
  rfl

theorem message_type (found : Found) : (Misfit.type found "a boolean").message =
    "invalid type: " ++ found.describe ++ ", expected a boolean" := by
  have words : ", expected a boolean" = ", expected " ++ "a boolean" := by decide
  rw [words, ← String.append_assoc]
  rfl

theorem Refused.complaint (refused : Refused key v cause) : Complaint key v cause.message := by
  cases refused with
  | unknown other =>
      rw [message_unknownField]
      exact .unknown other
  | mistyped known other =>
      rw [message_type]
      exact .mistyped known other

/-! ## A table of options -/

/-- A table that is not taken is refused for the lowest key whose option does not fit. -/
theorem lowest_of_taken (taken : Taken c settings.inKeyOrder (.error cause)) :
    ∃ key v, (key, v) ∈ settings.options ∧ Complaint key v cause.message ∧ ¬ Fits (key, v) ∧
      ∀ entry ∈ settings.options, ¬ Fits entry → Text.utf8 key ≤ Text.utf8 entry.1 := by
  obtain ⟨before, key, v, after, split, fits, refused⟩ := taken.error
  have member : (key, v) ∈ settings.inKeyOrder := by
    rw [split]
    exact List.mem_append_right _ List.mem_cons_self
  refine ⟨key, v, (inKeyOrder_perm settings).mem_iff.mp member, refused.complaint, refused.not_fits, ?_⟩
  intro entry member unfit
  exact lowest_of_refused split fits member unfit

/-- A table whose options fit states the flags that stand under their keys. -/
theorem exemptions_of_fits (fits : ∀ entry ∈ settings.options, Fits entry) (rule : String) :
    (settings.exemptions rule).map ({} : Exemptions).change = .ok settings.flags := by
  have taken := takeAll_taken {} settings.inKeyOrder
  rw [exemptions]
  cases outcome : takeAll {} settings.inKeyOrder with
  | error cause =>
      rw [outcome] at taken
      obtain ⟨key, v, member, _, unfit, _⟩ := lowest_of_taken taken
      exact absurd (fits _ member) unfit
  | ok c =>
      rw [outcome] at taken
      have counting : c.counting = _ := get_of_taken taken .counting
      have overKeys : c.overKeys = _ := get_of_taken taken .overKeys
      have overValues : c.overValues = _ := get_of_taken taken .overValues
      simp only [Except.mapError, Except.map, Exemptions.change, counting, overKeys, overValues]
      rfl

end RuleSettings

namespace TopRule

open RuleSettings

variable {settings : RuleSettings} {c : Exemptions.Changes} {cause : Misfit}

/-- The rule is made from what is taken of its options, or not at all. -/
theorem ofSettings_cases (settings : RuleSettings) :
    (∃ c, Taken {} settings.inKeyOrder (.ok c) ∧ ofSettings settings =
      .ok { exemptions := ({} : Exemptions).change c, severity := settings.severity.getD .error }) ∨
    ∃ cause, Taken {} settings.inKeyOrder (.error cause) ∧
      ofSettings settings = .error (.invalidOptions name cause) := by
  have taken := takeAll_taken {} settings.inKeyOrder
  rw [ofSettings, RuleSettings.exemptions]
  cases outcome : takeAll {} settings.inKeyOrder with
  | ok c =>
      rw [outcome] at taken
      exact .inl ⟨c, taken, rfl⟩
  | error cause =>
      rw [outcome] at taken
      exact .inr ⟨cause, taken, rfl⟩

/-- The rule is made from its table exactly when all options fit. Each flag is then the one that its option
states, or set where it has no option. Otherwise the option with the lowest key of those that do not fit is
complained about. The order in which the table was written does not matter. -/
theorem ofSettings_validated (settings : RuleSettings)
    (distinct : (settings.options.map (·.1)).Nodup) :
    ((∃ rule, ofSettings settings = .ok rule) ↔ ∀ entry ∈ settings.options, Fits entry) ∧
    (∀ rule, ofSettings settings = .ok rule →
      rule.severity = settings.severity.getD .error ∧ ∀ form : LoopForm,
        (∀ exempt, (form.optionKey, .boolean exempt) ∈ settings.options →
          rule.exemptions.covers form = exempt) ∧
        ((∀ v, (form.optionKey, v) ∉ settings.options) → rule.exemptions.covers form = true)) ∧
    (∀ e, ofSettings settings = .error e → ∃ key v cause, e = .invalidOptions "vars-on-top" cause ∧
      (key, v) ∈ settings.options ∧ Complaint key v cause.message ∧
      ∀ entry ∈ settings.options, ¬ Fits entry → Text.utf8 key ≤ Text.utf8 entry.1) ∧
    ∀ other : RuleSettings, other.options.Perm settings.options → other.severity = settings.severity →
      ofSettings other = ofSettings settings := by
  refine ⟨?_, ?_, ?_, ?_⟩
  · rcases ofSettings_cases settings with ⟨c, taken, made⟩ | ⟨cause, taken, refused⟩
    · exact iff_of_true ⟨_, made⟩ fun entry member =>
        taken.fits entry ((inKeyOrder_perm settings).mem_iff.mpr member)
    · obtain ⟨key, v, member, _, unfit, _⟩ := lowest_of_taken taken
      refine iff_of_false ?_ fun fits => unfit (fits _ member)
      rintro ⟨rule, made⟩
      cases refused.symm.trans made
  · intro rule made
    rcases ofSettings_cases settings with ⟨c, taken, made'⟩ | ⟨cause, taken, refused⟩
    · cases made.symm.trans made'
      refine ⟨rfl, fun form => ?_⟩
      rw [Exemptions.covers_change, get_of_taken taken]
      refine ⟨fun exempt member => ?_, fun without => ?_⟩
      · rw [flagsUnder_of_mem distinct member]
        rfl
      · rw [flagsUnder_of_absent without]
        cases form <;> rfl
    · cases refused.symm.trans made
  · intro e failed
    rcases ofSettings_cases settings with ⟨c, taken, made⟩ | ⟨cause, taken, refused⟩
    · cases failed.symm.trans made
    · cases failed.symm.trans refused
      obtain ⟨key, v, member, complaint, _, lowest⟩ := lowest_of_taken taken
      exact ⟨key, v, cause, rfl, member, complaint, lowest⟩
  · intro other same severity
    rw [ofSettings, ofSettings, RuleSettings.exemptions, RuleSettings.exemptions,
      inKeyOrder_eq_of_perm distinct same, severity]

/-- A table of which no option fits, from the highest key to the lowest. -/
def mixedOptions : RuleSettings :=
  { options := [("zebra".toList, .boolean true), ("forStatement".toList, .string "no".toList),
      ("extra".toList, .integer 1)] }

theorem ofSettings_validated_mixed :
    let ascending : RuleSettings := { options := mixedOptions.options.reverse }
    let e := .invalidOptions "vars-on-top" (.unknownField "extra" optionKeys)
    (mixedOptions.options.map (·.1)).Nodup ∧ ascending.options.Perm mixedOptions.options ∧
      ofSettings ascending = ofSettings mixedOptions ∧ ofSettings mixedOptions = .error e ∧
      ∃ key v cause, e = .invalidOptions "vars-on-top" cause ∧ (key, v) ∈ mixedOptions.options ∧
        Complaint key v cause.message ∧
        ∀ entry ∈ mixedOptions.options, ¬ Fits entry → Text.utf8 key ≤ Text.utf8 entry.1 := by
  intro ascending e
  have distinct : (mixedOptions.options.map (·.1)).Nodup := by decide
  obtain ⟨_, _, lowest, order⟩ := ofSettings_validated mixedOptions distinct
  have perm : ascending.options.Perm mixedOptions.options := List.reverse_perm _
  have same : ofSettings ascending = ofSettings mixedOptions := order ascending perm rfl
  have failed : ofSettings mixedOptions = .error e := by
    have sorted : ascending.inKeyOrder = ascending.options := List.mergeSort_of_pairwise (by decide)
    rw [← same, ofSettings, RuleSettings.exemptions, sorted]
    rfl
  exact ⟨distinct, perm, same, failed, lowest e failed⟩

example : ofSettings { severity := some .info, options := [("forOfStatement".toList, .boolean false)] } =
    .ok { exemptions := ⟨true, true, false⟩, severity := .info } := by
  with_unfolding_all rfl

end TopRule

end ScopeLint
