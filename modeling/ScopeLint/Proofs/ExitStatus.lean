import ScopeLint.CommandLine.Commands
import ScopeLint.Proofs.Analysis
import ScopeLint.Proofs.Overrides
import ScopeLint.Proofs.RuleOptions

/-!
# When a check fails

A check fails if a finding reaches the threshold of its configuration. `Fails` says the same of the
sources and of the table that the configuration has for the rule: the rule is enabled and asked for, and a
file that parses has a misplaced declaration that counts. One that no directive permits counts if the rule
is grave enough. One that is permitted without a reason counts only as the warning that it is, and only
where it is an error to break the rule. Neither the format of the report nor the other files matter.
-/

namespace ScopeLint

namespace Report

variable {report : Report} {threshold : Severity}

theorem reaches_iff :
    report.reaches threshold ↔ ∃ finding ∈ report.findings, threshold ≤ finding.severity := by
  simp [reaches]

theorem reaches_sort : report.sort.reaches threshold ↔ report.reaches threshold := by
  simp only [reaches_iff, sort, List.mem_mergeSort]

end Report

namespace TopRule

variable {rule : TopRule} {file : SourceFile} {o : Outline} {threshold : Severity}

/-- Whether a misplaced declaration counts at a threshold, when the rule has some severity. -/
def Counts (severity threshold : Severity) (permission : Permission) : Prop :=
  permission = .denied ∧ threshold ≤ severity ∨
    permission = .allowed none ∧ severity = .error ∧ threshold ≤ .warning

instance {severity : Severity} {permission : Permission} :
    Decidable (Counts severity threshold permission) :=
  inferInstanceAs (Decidable (_ ∨ _))

theorem Counts.lower {severity lower : Severity} {permission : Permission}
    (counts : Counts severity threshold permission) (le : lower ≤ threshold) :
    Counts severity lower permission := by
  rcases counts with ⟨denied, reached⟩ | ⟨allowed, strict, reached⟩
  · exact .inl ⟨denied, Nat.le_trans le reached⟩
  · exact .inr ⟨allowed, strict, Nat.le_trans le reached⟩

theorem check_reaches_iff : (∃ finding ∈ rule.check file o, threshold ≤ finding.severity) ↔
    ∃ m ∈ misplacements o rule.exemptions, Counts rule.severity threshold (permission file o m) := by
  simp only [check_eq_filterMap, List.mem_filterMap, finding?_eq_some_iff]
  constructor
  · rintro ⟨finding, ⟨m, member, ⟨denied, rfl⟩ | ⟨allowed, strict, rfl⟩⟩, reached⟩
    · rw [(misplaced_onMisplaced rule file o m).severity] at reached
      exact ⟨m, member, .inl ⟨denied, reached⟩⟩
    · exact ⟨m, member, .inr ⟨allowed, strict, reached⟩⟩
  · rintro ⟨m, member, ⟨denied, reached⟩ | ⟨allowed, strict, reached⟩⟩
    · refine ⟨_, ⟨m, member, .inl ⟨denied, rfl⟩⟩, ?_⟩
      rwa [(misplaced_onMisplaced rule file o m).severity]
    · exact ⟨_, ⟨m, member, .inr ⟨allowed, strict, rfl⟩⟩, reached⟩

end TopRule

namespace Configuration

variable {c : Configuration}

/-- The table of the rule; without one it is as if the table were empty. -/
def table (c : Configuration) : RuleSettings :=
  (c.rules.lookup "vars-on-top".toList).getD {}

theorem isEnabled_eq (c : Configuration) : c.isEnabled "vars-on-top" = c.table.enabled.getD true := by
  rw [isEnabled, ruleSettings?, table]
  cases c.rules.lookup "vars-on-top".toList <;> rfl

theorem severity?_eq (c : Configuration) : c.severity? "vars-on-top" = c.table.severity := by
  rw [severity?, ruleSettings?, table]
  cases c.rules.lookup "vars-on-top".toList <;> rfl

theorem exemptions_eq (valid : ∀ entry ∈ c.table.options, RuleSettings.Fits entry) :
    c.exemptions = .ok c.table.flags := by
  rw [exemptions, TopRule.name, ruleSettings?]
  rw [table] at valid ⊢
  cases found : c.rules.lookup "vars-on-top".toList with
  | none => rfl
  | some settings =>
      rw [found] at valid
      exact RuleSettings.exemptions_of_fits valid _

end Configuration

namespace TopRule

/-- The rule as its table in a configuration has it. -/
def ofTable (c : Configuration) : TopRule :=
  { exemptions := c.table.flags, severity := c.table.severity.getD .error }

theorem configured_flags (c : Configuration) : configured c c.table.flags = ofTable c := by
  rw [configured, ofTable, ← c.severity?_eq]
  rfl

end TopRule

namespace Linter

theorem mem_gathered {linter : Linter} {grammar : Grammar} {base : Path} {files : List FoundFile}
    {finding : Finding} :
    finding ∈ (linter.gathered grammar base (inOrder files)).findings ↔
      ∃ f ∈ files, finding ∈ linter.findingsIn grammar base f := by
  simp only [gathered, List.mem_flatMap, (inOrder_perm files).mem_iff]

end Linter

namespace CommandLine

open TopRule

variable {fs : FileSystem} {grammar : Grammar} {path : Path} {filter : Option (List Char)}
  {excludes : List (List Char)} {c : Configuration} {e : Exemptions} {severity threshold : Severity}
  {selection : Selection} {files : List FoundFile} {f : FoundFile}

/-- Whether a filter, a list separated by commas, asks for the rule by its name or by its code. -/
def Asks (filter : Option (List Char)) : Prop :=
  ∀ list, filter = some list → ∃ piece ∈ Text.splitAt ',' list,
    Text.trim piece = "vars-on-top".toList ∨ Text.trim piece = "HL001".toList

theorem asks_some_iff {list : List Char} : Asks (some list) ↔
    (filterNames list).contains "vars-on-top".toList || (filterNames list).contains "HL001".toList := by
  simp only [Asks, Option.some.injEq, forall_eq', filterNames, Bool.or_eq_true, List.contains_iff_mem,
    List.mem_map, ← exists_or, ← and_or_left]

instance : Decidable (Asks filter) :=
  match filter with
  | none => isTrue nofun
  | some _ => decidable_of_iff _ asks_some_iff.symm

theorem mem_applyFilter {rule : TopRule} {r : Rule} :
    r ∈ (applyFilter filter [rule.toRule]).1 ↔ r = rule.toRule ∧ Asks filter := by
  cases filter with
  | none => simp [applyFilter, Asks]
  | some list =>
      rw [applyFilter, chosen, List.mem_filter, List.mem_singleton]
      refine and_congr_right fun same => ?_
      rw [same, asks_some_iff]
      rfl

/-- Whether a file has a misplaced declaration that counts. -/
def HasFailure (e : Exemptions) (severity threshold : Severity) (grammar : Grammar)
    (f : FoundFile) : Prop :=
  ∃ o, f.outline grammar = .ok o ∧
    ∃ n ∈ o.findAll (.declaration .var), ∃ m, Placement.verdict o e n (o.lineage n) = some m ∧
      Counts severity threshold (Directive.permission f.text (o.span m.node).line "vars-on-top".toList)

instance : Decidable (HasFailure e severity threshold grammar f) :=
  decidable_of_iff (∃ o ∈ (f.outline grammar).toOption, ∃ n ∈ o.findAll (.declaration .var),
      ∃ m ∈ Placement.verdict o e n (o.lineage n), Counts severity threshold
        (Directive.permission f.text (o.span m.node).line "vars-on-top".toList)) <| by
    rw [HasFailure]
    cases f.outline grammar <;> simp [Except.toOption]

/-- Whether the sources make a check fail: the table of the rule and the threshold are as the configuration
states them. A rule is enabled and an error by default, and errors are the default threshold. -/
structure Fails (c : Configuration) (filter : Option (List Char)) (grammar : Grammar)
    (files : List FoundFile) : Prop where
  enabled : c.table.enabled.getD true
  asked : Asks filter
  failure : ∃ f ∈ files,
    HasFailure c.table.flags (c.table.severity.getD .error) (c.failOn.getD .error) grammar f

theorem fails_iff : Fails c filter grammar files ↔
    c.table.enabled.getD true ∧ Asks filter ∧ ∃ f ∈ files,
      HasFailure c.table.flags (c.table.severity.getD .error) (c.failOn.getD .error) grammar f :=
  ⟨fun fails => ⟨fails.enabled, fails.asked, fails.failure⟩,
    fun ⟨enabled, asked, failure⟩ => ⟨enabled, asked, failure⟩⟩

theorem HasFailure.lower {lower : Severity} (failure : HasFailure e severity threshold grammar f)
    (le : lower ≤ threshold) : HasFailure e severity lower grammar f := by
  obtain ⟨o, parsed, n, listed, m, verdict, counts⟩ := failure
  exact ⟨o, parsed, n, listed, m, verdict, counts.lower le⟩

/-- With a graver threshold there are fewer failures. -/
theorem Fails.lower {failOn : Option Severity} (fails : Fails { c with failOn } filter grammar files)
    (le : c.failOn.getD .error ≤ failOn.getD .error) : Fails c filter grammar files := by
  obtain ⟨enabled, asked, f, member, failure⟩ := fails
  exact ⟨enabled, asked, f, member, failure.lower le⟩

/-- The linter that a check makes. -/
def linterOf (fs : FileSystem) (path : Path) (filter : Option (List Char)) (selection : Selection)
    (c : Configuration) : Linter where
  root := fs.current.join path
  rules := (applyFilter filter [(ofTable c).toRule]).1
  selection := selection
  configuration := c
  strict := false

theorem mem_findings_linterOf {file : SourceFile} {o : Outline} {finding : Finding} :
    finding ∈ (linterOf fs path filter selection c).findings file o ↔
      c.table.enabled.getD true ∧ Asks filter ∧ finding ∈ (ofTable c).check file o := by
  have unchanged : ∀ findings, (linterOf fs path filter selection c).adjust (ofTable c).toRule findings =
      findings := by
    rw [← configured_flags]
    exact Linter.adjust_configured
  rw [Linter.mem_findings, ← c.isEnabled_eq]
  constructor
  · rintro ⟨rule, member, enabled, found⟩
    obtain ⟨rfl, asked⟩ := mem_applyFilter.mp member
    rw [unchanged] at found
    exact ⟨enabled, asked, found⟩
  · rintro ⟨enabled, asked, found⟩
    refine ⟨_, mem_applyFilter.mpr ⟨rfl, asked⟩, enabled, ?_⟩
    rwa [unchanged]

theorem hasFailure_iff {base : Path} : HasFailure e severity threshold grammar f ↔
    ∃ o, f.outline grammar = .ok o ∧
      ∃ finding ∈ TopRule.check { exemptions := e, severity } (f.source base) o,
        threshold ≤ finding.severity := by
  refine exists_congr fun o => and_congr_right fun parsed => ?_
  have linked := Outline.linked_of_parse parsed
  rw [check_reaches_iff]
  simp only [mem_misplacements linked]
  constructor
  · rintro ⟨n, listed, m, verdict, counts⟩
    exact ⟨m, ⟨n, listed, verdict⟩, counts⟩
  · rintro ⟨m, ⟨n, listed, verdict⟩, counts⟩
    exact ⟨n, listed, m, verdict, counts⟩

theorem reaches_gathered_iff {base : Path} :
    ((linterOf fs path filter selection c).gathered grammar base (Linter.inOrder files)).reaches
      c.threshold ↔ Fails c filter grammar files := by
  rw [Report.reaches_iff]
  simp only [Linter.mem_gathered, Linter.mem_findingsIn, mem_findings_linterOf]
  constructor
  · rintro ⟨finding, ⟨f, member, o, parsed, enabled, asked, found⟩, reached⟩
    exact ⟨enabled, asked, f, member, hasFailure_iff.mpr ⟨o, parsed, finding, found, reached⟩⟩
  · rintro ⟨enabled, asked, f, member, failure⟩
    obtain ⟨o, parsed, finding, found, reached⟩ := hasFailure_iff.mp failure
    exact ⟨finding, ⟨f, member, o, parsed, enabled, asked, found⟩, reached⟩

theorem analyze_reaches
    (searched : Discovery.sourceFiles fs c.files.respectIgnoreFiles selection (fs.current.join path) =
      .ok files)
    (readable : ∀ f ∈ files, f.isReadable) :
    ∃ report, ((linterOf fs path filter selection c).analyze grammar fs).result = .ok report ∧
      (report.reaches c.threshold ↔ Fails c filter grammar files) := by
  let linter := linterOf fs path filter selection c
  refine ⟨(linter.gathered grammar (linter.base fs) (Linter.inOrder files)).sort, ?_,
    Report.reaches_sort.trans reaches_gathered_iff⟩
  rw [Linter.analyze_eq searched]
  exact Linter.analyzeFiles_gathered readable fun _ _ strict => Bool.noConfusion strict

/-- A check of files that can be read ends with a report, which reaches the threshold if the files make
the check fail. -/
theorem checkWith_reaches (valid : ∀ entry ∈ c.table.options, RuleSettings.Fits entry)
    (compiled : Selection.ofPatterns (excludes ++ c.files.excludes) c.files.includes = .ok selection)
    (searched : Discovery.sourceFiles fs c.files.respectIgnoreFiles selection (fs.current.join path) =
      .ok files)
    (readable : ∀ f ∈ files, f.isReadable) :
    ∃ report, (checkWith fs grammar c path filter excludes).2 = .ok report ∧
      (report.reaches c.threshold ↔ Fails c filter grammar files) := by
  have rules : c.configuredRules = .ok [(ofTable c).toRule] := by
    rw [configuredRules_eq (Configuration.exemptions_eq valid), configured_flags]
  have built : LinterPlan.build
      { root := some path, excludes, configuration := c
        rules := (applyFilter filter [(ofTable c).toRule]).1 } fs.current =
      .ok (linterOf fs path filter selection c) := by
    simp only [LinterPlan.build, List.nil_append, compiled]
    rfl
  obtain ⟨report, analyzed, reaches⟩ := analyze_reaches searched readable
  refine ⟨report, ?_, reaches⟩
  simp only [checkWith, rules, built, analyzed]

theorem check_result {source : ConfigurationSource} {report : Report}
    (loaded : source.load? fs = some c)
    (reported : (checkWith fs grammar c path filter excludes).2 = .ok report) (draw : Drawing)
    (format : Format) :
    (check fs grammar draw source path format filter excludes).result =
      .ok (format.render (drawFinding fs draw path) report, report.reaches c.threshold) := by
  obtain ⟨warnings, ended⟩ : ∃ warnings, checkWith fs grammar c path filter excludes =
    (warnings, .ok report) := ⟨_, Prod.ext rfl reported⟩
  simp only [check, loaded, ended]

/-- A check that meets no error ends with a report, in any format, and counts as failed exactly if the
sources make it fail. With a graver threshold it fails only where it failed before. -/
theorem check_failed_iff (fs : FileSystem) (grammar : Grammar) (draw : Drawing)
    (source : ConfigurationSource) (path : Path) (format : Format) (filter : Option (List Char))
    (excludes : List (List Char)) (c : Configuration) (selection : Selection) (files : List FoundFile)
    (loaded : source.load? fs = some c)
    (valid : ∀ entry ∈ c.table.options, RuleSettings.Fits entry)
    (compiled : Selection.ofPatterns (excludes ++ c.files.excludes) c.files.includes = .ok selection)
    (searched : Discovery.sourceFiles fs c.files.respectIgnoreFiles selection (fs.current.join path) =
      .ok files)
    (readable : ∀ f ∈ files, f.isReadable) :
    ∃ output failed,
      (check fs grammar draw source path format filter excludes).result = .ok (output, failed) ∧
      (check fs grammar draw source path format filter excludes).toRun.status =
        (if failed then 1 else 0) ∧
      (failed ↔ Fails c filter grammar files) ∧
      ∀ fs' draw' source' format' failOn, source'.load? fs' = some { c with failOn } →
        Discovery.sourceFiles fs' c.files.respectIgnoreFiles selection (fs'.current.join path) = .ok files →
        c.failOn.getD .error ≤ failOn.getD .error →
        ∃ output' failed',
          (check fs' grammar draw' source' path format' filter excludes).result = .ok (output', failed') ∧
          (failed' → failed) := by
  obtain ⟨report, reported, reaches⟩ := checkWith_reaches valid compiled searched readable
  have ended := check_result loaded reported draw format
  refine ⟨_, _, ended, ?_, reaches, ?_⟩
  · rw [Ending.toRun, ended]
  · intro fs' draw' source' format' failOn loaded' searched' graver
    obtain ⟨report', reported', reaches'⟩ :=
      checkWith_reaches (c := { c with failOn }) valid compiled searched' readable
    refine ⟨_, _, check_result loaded' reported' draw' format', fun failed => ?_⟩
    exact reaches.mpr ((reaches'.mp failed).lower graver)

/-- A loop over values that declares in its header. -/
def valuesText : List Char :=
  "for (var v of w) {}".toList

def valuesTree : Concrete :=
  .node ⟨"program", 0, 19, none, .named⟩
    [.node ⟨"for_in_statement", 0, 19, none, .named⟩
      [.node ⟨"var", 5, 8, some "kind", .token⟩ [],
        .node ⟨"identifier", 9, 10, some "left", .named⟩ [],
        .node ⟨"of", 11, 13, some "operator", .token⟩ [],
        .node ⟨"identifier", 14, 15, some "right", .named⟩ [],
        .node ⟨"statement_block", 17, 19, some "body", .named⟩ []]]

/-- The loop and, in a directory that is left out by default, a copy of it. The settings files have a table
for the rule. -/
def project : FileSystem where
  nodes :=
    [(["p".toList], .directory),
      (["p".toList, "a.js".toList], .file (String.ofList valuesText).toUTF8),
      (["p".toList, "dist".toList], .directory),
      (["p".toList, "dist".toList, "b.js".toList], .file (String.ofList valuesText).toUTF8),
      (["p".toList, "strict.toml".toList], .file ("fail_on = \"warning\"\n[rules.vars-on-top]\n" ++
        "severity = \"warning\"\nforOfStatement = false\n").toUTF8),
      (["p".toList, "mild.toml".toList], .file ("fail_on = \"warning\"\n[rules.vars-on-top]\n" ++
        "severity = \"info\"\nforOfStatement = false\n").toUTF8),
      (["p".toList, "off.toml".toList], .file ("[rules.vars-on-top]\n" ++
        "enabled = false\nforOfStatement = false\n").toUTF8),
      (["p".toList, "keys.toml".toList], .file ("fail_on = \"info\"\n[rules.vars-on-top]\n" ++
        "forInStatement = false\n").toUTF8)]
  current := ⟨"/p".toList⟩

/-- Only the first settings file makes the check fail: in the others the rule is not grave enough, is off,
or leaves loops over values alone. -/
theorem check_failed_iff_project :
    let files : List FoundFile := [⟨⟨"/p/./a.js".toList⟩, (String.ofList valuesText).toUTF8⟩]
    let ending := fun settings : String =>
      check project (fun _ _ => valuesTree) (fun _ => "") (.explicit (.ofString settings)) ⟨['.']⟩ .json
        (some "unused, HL001".toList) []
    (∃ selection,
      Selection.ofPatterns ([] ++ ({} : Configuration).files.excludes) [] = .ok selection ∧
      Discovery.sourceFiles project true selection (project.current.join ⟨['.']⟩) = .ok files) ∧
    (∀ f ∈ files, f.isReadable) ∧
    (ending "strict.toml").toRun.status = 1 ∧ (ending "mild.toml").toRun.status = 0 ∧
    (ending "off.toml").toRun.status = 0 ∧ (ending "keys.toml").toRun.status = 0 := by
  intro files ending
  have readable : ∀ f ∈ files, f.isReadable := by decide +kernel
  obtain ⟨selection, compiled, searched⟩ : ∃ selection,
      Selection.ofPatterns ([] ++ ({} : Configuration).files.excludes) [] = .ok selection ∧
      Discovery.sourceFiles project true selection (project.current.join ⟨['.']⟩) = .ok files :=
    ⟨_, rfl, rfl⟩
  -- what a run depends on is all that has to be read of its settings
  have run : ∀ settings failOn enabled severity flags,
      ((ConfigurationSource.explicit (.ofString settings)).load? project).map (fun c =>
        (c.failOn, c.table.enabled, c.table.severity, c.table.flags, c.files,
          decide (∀ entry ∈ c.table.options, RuleSettings.Fits entry))) =
        some (failOn, enabled, severity, flags, {}, true) →
      (ending settings).toRun.status =
        if enabled.getD true ∧ Asks (some "unused, HL001".toList) ∧ ∃ f ∈ files,
          HasFailure flags (severity.getD .error) (failOn.getD .error) (fun _ _ => valuesTree) f
        then 1 else 0 := by
    intro settings failOn enabled severity flags read
    obtain ⟨c, loaded, same⟩ := Option.map_eq_some_iff.mp read
    simp only [Prod.mk.injEq, decide_eq_true_eq] at same
    obtain ⟨rfl, rfl, rfl, rfl, defaults, valid⟩ := same
    obtain ⟨output, failed, -, status, verdict, -⟩ :=
      check_failed_iff project (fun _ _ => valuesTree) (fun _ => "") (.explicit (.ofString settings))
        ⟨['.']⟩ .json (some "unused, HL001".toList) [] c selection files loaded valid
        (defaults ▸ compiled) (defaults ▸ searched) readable
    rw [status]
    exact if_congr (verdict.trans fails_iff) rfl rfl
  refine ⟨⟨selection, compiled, searched⟩, readable, ?_, ?_, ?_, ?_⟩
  · rw [run _ (some .warning) none (some .warning) ⟨true, true, false⟩ (by decide +kernel)]
    decide +kernel
  · rw [run _ (some .warning) none (some .info) ⟨true, true, false⟩ (by decide +kernel)]
    decide +kernel
  · rw [run _ none (some false) none ⟨true, true, false⟩ (by decide +kernel)]
    decide +kernel
  · rw [run _ (some .info) none none ⟨true, false, true⟩ (by decide +kernel)]
    decide +kernel

end CommandLine

end ScopeLint
