import ScopeLint.Linter
import ScopeLint.Proofs.ReportOrder
import ScopeLint.Proofs.Reports

/-!
# What an analysis gathers

Files are checked one after the other, each on its own, and the findings are put together and sorted. A
file that does not parse adds nothing, or ends a strict run. `Linter.PerFile` says of a report that it holds
the findings of each file as if the file had been checked alone, in the order of their positions; which other
files there are, and in which order they were found, does not matter.

Findings are told apart by the paths they carry, so a rule has to report in the file that it was given.
-/

namespace ScopeLint

namespace FoundFile

/-- The text of a file that can be read. -/
def text (f : FoundFile) : List Char :=
  (textOfBytes? f.content).getD []

def isReadable (f : FoundFile) : Bool :=
  (textOfBytes? f.content).isSome

/-- The outline of a file, or the first fault in it. -/
def outline (grammar : Grammar) (f : FoundFile) : Except SyntaxFault Outline :=
  Outline.parse f.text (grammar ((Dialect.ofPath? f.path).getD .javaScript) f.text)

def parses (grammar : Grammar) (f : FoundFile) : Bool :=
  (f.outline grammar).isOk

instance : Std.TransCmp comparePaths :=
  inferInstanceAs (Std.TransCmp (compareOn fun f : FoundFile => f.path.key))

/-- The file as a rule sees it. -/
def source (base : Path) (f : FoundFile) : SourceFile :=
  .below base f.path f.text ((Dialect.ofPath? f.path).getD .javaScript)

theorem textOfBytes?_eq {f : FoundFile} (readable : f.isReadable) :
    textOfBytes? f.content = some f.text := by
  obtain ⟨text, read⟩ := Option.isSome_iff_exists.mp readable
  rw [FoundFile.text, read]
  rfl

theorem exists_fault {grammar : Grammar} {f : FoundFile} (faulty : ¬ f.parses grammar) :
    ∃ fault, f.outline grammar = .error fault := by
  cases parsed : f.outline grammar with
  | ok o =>
      rw [parses, parsed] at faulty
      exact absurd rfl faulty
  | error fault => exact ⟨fault, rfl⟩

theorem exists_outline {grammar : Grammar} {f : FoundFile} (sound : f.parses grammar) :
    ∃ o, f.outline grammar = .ok o := by
  cases parsed : f.outline grammar with
  | ok o => exact ⟨o, rfl⟩
  | error fault =>
      rw [parses, parsed] at sound
      cases sound

end FoundFile

/-- Whether a rule reports in the file that it is given. -/
def Rule.StaysInFile (rule : Rule) : Prop :=
  ∀ file o, ∀ finding ∈ rule.check file o, finding.location.file.components = file.shown.components

theorem TopRule.toRule_staysInFile (rule : TopRule) : rule.toRule.StaysInFile := by
  intro file o finding found
  have found : finding ∈ rule.check file o := found
  rw [check_eq_filterMap, List.mem_filterMap] at found
  obtain ⟨m, -, found⟩ := found
  rcases finding?_eq_some_iff.mp found with ⟨-, rfl⟩ | ⟨-, -, rfl⟩
  · rw [(misplaced_onMisplaced rule file o m).location]
    rfl
  · rfl

namespace Linter

variable {linter : Linter} {grammar : Grammar} {base : Path} {f : FoundFile} {files : List FoundFile}

/-! ## Checking files in turn -/

theorem checkText_of_ok {o : Outline} (parsed : f.outline grammar = .ok o) :
    linter.checkText grammar base f.path f.text = .ok (linter.findings (f.source base) o) := by
  rw [FoundFile.outline] at parsed
  rw [checkText, parsed]
  rfl

theorem checkText_of_error {fault : SyntaxFault} (failed : f.outline grammar = .error fault) :
    linter.checkText grammar base f.path f.text = .error fault := by
  rw [FoundFile.outline] at failed
  rw [checkText, failed]

/-- The findings in a file; one that does not parse has none. -/
def findingsIn (linter : Linter) (grammar : Grammar) (base : Path) (f : FoundFile) : List Finding :=
  match f.outline grammar with
  | .ok o => linter.findings (f.source base) o
  | .error _ => []

/-- The findings in files that are checked in turn. -/
def gathered (linter : Linter) (grammar : Grammar) (base : Path) (files : List FoundFile) : Report :=
  { findings := files.flatMap (linter.findingsIn grammar base)
    filesChecked := files.countP (·.parses grammar) }

theorem mem_findings {file : SourceFile} {o : Outline} {finding : Finding} :
    finding ∈ linter.findings file o ↔ ∃ rule ∈ linter.rules,
      linter.configuration.isEnabled rule.name ∧ finding ∈ linter.adjust rule (rule.check file o) := by
  simp only [findings, List.mem_flatMap, List.mem_filter, and_assoc]

theorem mem_findingsIn {finding : Finding} : finding ∈ linter.findingsIn grammar base f ↔
    ∃ o, f.outline grammar = .ok o ∧ finding ∈ linter.findings (f.source base) o := by
  rw [findingsIn]
  cases f.outline grammar <;> simp

theorem findingsIn_eq {findings : List Finding}
    (checked : linter.checkText grammar base f.path f.text = .ok findings) :
    linter.findingsIn grammar base f = findings := by
  rw [findingsIn]
  cases parsed : f.outline grammar with
  | ok o =>
      rw [checkText_of_ok parsed] at checked
      exact Except.ok.inj checked
  | error fault =>
      rw [checkText_of_error parsed] at checked
      cases checked

theorem findingsIn_eq_nil {fault : SyntaxFault}
    (failed : linter.checkText grammar base f.path f.text = .error fault) :
    linter.findingsIn grammar base f = [] := by
  rw [findingsIn]
  cases parsed : f.outline grammar with
  | ok o =>
      rw [checkText_of_ok parsed] at failed
      cases failed
  | error fault => rfl

theorem gathered_cons :
    linter.gathered grammar base (f :: files) =
      .append ⟨linter.findingsIn grammar base f, if f.parses grammar then 1 else 0⟩
        (linter.gathered grammar base files) := by
  rw [gathered, gathered, Report.append, List.flatMap_cons, List.countP_cons, Nat.add_comm]

/-- A file that parses adds its findings to those of the files after it. -/
theorem checkFiles_of_ok (readable : f.isReadable) (sound : f.parses grammar) :
    (linter.checkFiles grammar base (f :: files)).result =
      (linter.checkFiles grammar base files).result.map
        (.append ⟨linter.findingsIn grammar base f, 1⟩) := by
  obtain ⟨o, parsed⟩ := FoundFile.exists_outline sound
  rw [checkFiles, FoundFile.textOfBytes?_eq readable]
  simp only [checkText_of_ok parsed, findingsIn, parsed]

theorem checkFiles_of_fault (readable : f.isReadable) {fault : SyntaxFault}
    (failed : f.outline grammar = .error fault) :
    (linter.checkFiles grammar base (f :: files)).result =
      if linter.strict then .error (.syntactic f.path fault)
      else (linter.checkFiles grammar base files).result := by
  rw [checkFiles, FoundFile.textOfBytes?_eq readable]
  simp only [checkText_of_error failed]
  split <;> rfl

/-- Unless a strict linter meets a fault, all findings are gathered. -/
theorem checkFiles_gathered (readable : ∀ f ∈ files, f.isReadable)
    (passes : ∀ f ∈ files, linter.strict → f.parses grammar) :
    (linter.checkFiles grammar base files).result = .ok (linter.gathered grammar base files) := by
  induction files with
  | nil => rfl
  | cons f files ih =>
      obtain ⟨here, later⟩ := List.forall_mem_cons.mp readable
      obtain ⟨passesHere, passesLater⟩ := List.forall_mem_cons.mp passes
      have rest := ih later passesLater
      by_cases sound : f.parses grammar
      · rw [checkFiles_of_ok here sound, rest, gathered_cons, if_pos sound]
        rfl
      · obtain ⟨fault, failed⟩ := FoundFile.exists_fault sound
        have lenient : ¬ linter.strict := fun strict => sound (passesHere strict)
        rw [checkFiles_of_fault here failed, if_neg lenient, rest, gathered_cons, if_neg sound, findingsIn,
          failed]
        simp [Report.append]

/-- A strict linter stops at the first fault. -/
theorem checkFiles_fault (strict : linter.strict) {before after : List FoundFile} {fault : SyntaxFault}
    (readable : ∀ f ∈ before, f.isReadable) (sound : ∀ f ∈ before, f.parses grammar)
    (readable' : f.isReadable) (failed : f.outline grammar = .error fault) :
    (linter.checkFiles grammar base (before ++ f :: after)).result =
      .error (.syntactic f.path fault) := by
  induction before with
  | nil =>
      rw [List.nil_append, checkFiles_of_fault readable' failed, if_pos strict]
  | cons g before ih =>
      obtain ⟨here, later⟩ := List.forall_mem_cons.mp readable
      obtain ⟨soundHere, soundLater⟩ := List.forall_mem_cons.mp sound
      rw [List.cons_append, checkFiles_of_ok here soundHere, ih later soundLater]
      rfl

/-! ## The findings of one file -/

theorem mem_adjust {rule : Rule} {findings : List Finding} {finding : Finding}
    (member : finding ∈ linter.adjust rule findings) :
    ∃ reported ∈ findings, finding.location = reported.location := by
  rw [adjust] at member
  split at member
  · exact ⟨finding, member, rfl⟩
  · obtain ⟨reported, found, rfl⟩ := List.mem_map.mp member
    refine ⟨reported, found, ?_⟩
    split <;> rfl

theorem findingsIn_located (inFile : ∀ rule ∈ linter.rules, rule.StaysInFile) {finding : Finding}
    (member : finding ∈ linter.findingsIn grammar base f) :
    finding.location.file.components = (f.path.relativeTo base).components := by
  obtain ⟨o, -, member⟩ := mem_findingsIn.mp member
  obtain ⟨rule, isRule, -, member⟩ := mem_findings.mp member
  obtain ⟨reported, member, same⟩ := mem_adjust member
  rw [same]
  exact inFile rule isRule _ _ reported member

/-- Of all that is gathered, a file is given back its own findings. -/
theorem filter_gathered (inFile : ∀ rule ∈ linter.rules, rule.StaysInFile)
    (distinct : files.Pairwise fun f g => f.path.components ≠ g.path.components)
    (below : ∀ f ∈ files, f.path.startsWith base) (member : f ∈ files) :
    (linter.gathered grammar base files).findings.filter
      (·.location.file.components = (f.path.relativeTo base).components) =
        linter.findingsIn grammar base f := by
  have others : ∀ g ∈ files, f.path.components ≠ g.path.components →
      (linter.findingsIn grammar base g).filter
        (·.location.file.components = (f.path.relativeTo base).components) = [] := by
    intro g isFile apart
    refine List.filter_eq_nil_iff.mpr fun finding found here => apart ?_
    have shown := (of_decide_eq_true here).symm.trans (findingsIn_located inFile found)
    exact Path.relativeTo_inj (below f member) (below g isFile) shown
  have own : (linter.findingsIn grammar base f).filter
      (·.location.file.components = (f.path.relativeTo base).components) =
        linter.findingsIn grammar base f :=
    List.filter_eq_self.mpr fun finding found => decide_eq_true (findingsIn_located inFile found)
  obtain ⟨before, after, rfl⟩ := List.append_of_mem member
  obtain ⟨_, later, earlier⟩ := List.pairwise_append.mp distinct
  have beforeEmpty : before.flatMap (fun g => (linter.findingsIn grammar base g).filter
      (·.location.file.components = (f.path.relativeTo base).components)) = [] := by
    refine List.flatMap_eq_nil_iff.mpr fun g isFile => others g (List.mem_append_left _ isFile) ?_
    exact Ne.symm (earlier g isFile f List.mem_cons_self)
  have afterEmpty : after.flatMap (fun g => (linter.findingsIn grammar base g).filter
      (·.location.file.components = (f.path.relativeTo base).components)) = [] := by
    refine List.flatMap_eq_nil_iff.mpr fun g isFile =>
      others g (List.mem_append_right _ (List.mem_cons_of_mem _ isFile)) ?_
    exact List.rel_of_pairwise_cons later isFile
  rw [gathered, List.filter_flatMap, List.flatMap_append, List.flatMap_cons, beforeEmpty, afterEmpty, own,
    List.nil_append, List.append_nil]

/-- Whether a report is what the files hold, each taken for itself. -/
structure PerFile (linter : Linter) (grammar : Grammar) (files : List FoundFile) (report : Report) :
    Prop where
  filesChecked : report.filesChecked = files.countP (·.parses grammar)
  ascending : report.findings.Pairwise fun a b => Report.Before a b ∨ Report.SamePlace a b
  complete : report.findings.Perm (files.flatMap (linter.findingsIn grammar linter.root))
  ofFile : ∀ f ∈ files, ∀ findings,
    linter.checkText grammar linter.root f.path f.text = .ok findings →
      SortedFrom Report.comparePositions findings (report.findings.filter
        (·.location.file.components = (f.path.relativeTo linter.root).components))
  ofFault : ∀ f ∈ files, ∀ fault,
    linter.checkText grammar linter.root f.path f.text = .error fault →
      report.findings.filter
        (·.location.file.components = (f.path.relativeTo linter.root).components) = []

theorem gathered_perFile (inFile : ∀ rule ∈ linter.rules, rule.StaysInFile)
    (distinct : files.Pairwise fun f g => f.path.components ≠ g.path.components)
    (below : ∀ f ∈ files, f.path.startsWith linter.root) :
    linter.PerFile grammar files (linter.gathered grammar linter.root files).sort where
  filesChecked := rfl
  ascending := (mergeSort_ascending _).imp Report.comparePlaces_isLE_iff.mp
  complete := List.mergeSort_perm _ _
  ofFile := by
    intro f member findings checked
    have order : SortedFrom Report.comparePlaces _ _ :=
      mergeSort_sortedFrom (linter.gathered grammar linter.root files).findings
    have own := Report.sortedFrom_ofFile order (f.path.relativeTo linter.root)
    rwa [filter_gathered inFile distinct below member, findingsIn_eq checked] at own
  ofFault := by
    intro f member fault failed
    have order := List.mergeSort_perm (linter.gathered grammar linter.root files).findings
      fun a b => (Report.comparePlaces a b).isLE
    have own := order.filter (·.location.file.components = (f.path.relativeTo linter.root).components)
    rw [filter_gathered inFile distinct below member, findingsIn_eq_nil failed] at own
    exact own.eq_nil

theorem PerFile.of_perm {files' : List FoundFile} {report : Report}
    (h : linter.PerFile grammar files report) (same : files.Perm files') :
    linter.PerFile grammar files' report where
  filesChecked := h.filesChecked.trans (same.countP_eq _)
  ascending := h.ascending
  complete := h.complete.trans (same.flatMap_right _)
  ofFile := fun f member => h.ofFile f (same.mem_iff.mpr member)
  ofFault := fun f member => h.ofFault f (same.mem_iff.mpr member)

/-! ## Analyses -/

theorem inOrder_perm (files : List FoundFile) : (inOrder files).Perm files :=
  List.mergeSort_perm files _

theorem analyzeFiles_eq (linter : Linter) (grammar : Grammar) (base : Path) (files : List FoundFile) :
    linter.analyzeFiles grammar base files =
      { warnings := (linter.checkFiles grammar base (inOrder files)).warnings
        result := (linter.checkFiles grammar base (inOrder files)).result.map Report.sort } :=
  rfl

/-- The order in which files are found does not matter. -/
theorem analyzeFiles_eq_of_perm {files' : List FoundFile} (same : files'.Perm files)
    (distinct : files.Pairwise fun f g => f.path.components ≠ g.path.components) :
    linter.analyzeFiles grammar base files' = linter.analyzeFiles grammar base files := by
  have unequal : files.Pairwise fun f g => FoundFile.comparePaths f g ≠ .eq :=
    distinct.imp fun apart equal => apart (Path.key_eq_iff.mp (Std.compare_eq_iff_eq.mp equal))
  have sorted : inOrder files = inOrder files' := mergeSort_eq_of_perm same.symm unequal
  rw [analyzeFiles_eq, analyzeFiles_eq, sorted]

/-- The fault that ends a strict analysis is in the first of the files that have one. -/
theorem analyzeFiles_fault (strict : linter.strict) (readable : ∀ f ∈ files, f.isReadable)
    (faulty : ∃ f ∈ files, ¬ f.parses grammar) :
    ∃ f ∈ files, ∃ fault, f.outline grammar = .error fault ∧
      (∀ g ∈ files, ¬ g.parses grammar →
        f.path.Before g.path ∨ f.path.components = g.path.components) ∧
      (linter.analyzeFiles grammar base files).result = .error (.syntactic f.path fault) := by
  have members : ∀ f, f ∈ inOrder files ↔ f ∈ files := fun f => (inOrder_perm files).mem_iff
  obtain ⟨bad, isFile, failed⟩ := faulty
  obtain ⟨f, found⟩ : ∃ f, (inOrder files).find? (fun f => !f.parses grammar) = some f := by
    refine Option.isSome_iff_exists.mp (List.find?_isSome.mpr ⟨bad, (members bad).mpr isFile, ?_⟩)
    simpa using failed
  obtain ⟨isFaulty, before, after, split, sound⟩ := List.find?_eq_some_iff_append.mp found
  have inFiles : f ∈ files := (members f).mp (List.mem_of_find?_eq_some found)
  obtain ⟨fault, failed⟩ := FoundFile.exists_fault (by simpa using isFaulty)
  refine ⟨f, inFiles, fault, failed, ?_, ?_⟩
  · intro g isFile faulty
    have ascending : (inOrder files).Pairwise fun f g => (FoundFile.comparePaths f g).isLE :=
      mergeSort_ascending files
    have place := (members g).mpr isFile
    rw [split] at ascending place
    rcases List.mem_append.mp place with early | late
    · exact absurd (by simpa using sound g early) faulty
    · rcases List.mem_cons.mp late with rfl | later
      · exact .inr rfl
      · exact Path.compare_key_isLE_iff.mp
          (List.rel_of_pairwise_cons (List.pairwise_append.mp ascending).2.1 later)
  · have readableBefore : ∀ g ∈ before, g.isReadable := by
      intro g early
      refine readable g ((members g).mp ?_)
      rw [split]
      exact List.mem_append_left _ early
    have soundBefore : ∀ g ∈ before, g.parses grammar := fun g early => by simpa using sound g early
    rw [analyzeFiles_eq, split,
      checkFiles_fault strict readableBefore soundBefore (readable f inFiles) failed]
    rfl

theorem analyzeFiles_gathered (readable : ∀ f ∈ files, f.isReadable)
    (passes : ∀ f ∈ files, linter.strict → f.parses grammar) :
    (linter.analyzeFiles grammar base files).result =
      .ok (linter.gathered grammar base (inOrder files)).sort := by
  have members : ∀ f ∈ inOrder files, f ∈ files := fun f => (inOrder_perm files).mem_iff.mp
  rw [analyzeFiles_eq, checkFiles_gathered (fun f member => readable f (members f member))
    (fun f member => passes f (members f member))]
  rfl

theorem analyze_eq {fs : FileSystem}
    (search : Discovery.sourceFiles fs linter.configuration.files.respectIgnoreFiles linter.selection
      linter.root = .ok files) :
    linter.analyze grammar fs = linter.analyzeFiles grammar (linter.base fs) files := by
  rw [analyze, search]

/-- An analysis of the files below a directory reports what each file holds by itself, whatever other
files there are and whatever order they are found in. Files that do not parse are passed over; if the linter
is strict, the first of them ends the analysis. -/
theorem analyze_perFile (linter : Linter) (grammar : Grammar) (files : List FoundFile)
    (distinct : files.Pairwise fun f g => f.path.components ≠ g.path.components)
    (below : ∀ f ∈ files, f.path.startsWith linter.root) (readable : ∀ f ∈ files, f.isReadable)
    (inFile : ∀ rule ∈ linter.rules, rule.StaysInFile) :
    (∃ report, linter.PerFile grammar files report ∧
      ({ linter with strict := false }.analyzeFiles grammar linter.root files).result = .ok report ∧
      ((∀ f ∈ files, f.parses grammar) →
        ({ linter with strict := true }.analyzeFiles grammar linter.root files).result = .ok report)) ∧
    ((∃ f ∈ files, ¬ f.parses grammar) →
      ∃ f ∈ files, ∃ fault, f.outline grammar = .error fault ∧
        (∀ g ∈ files, ¬ g.parses grammar →
          f.path.Before g.path ∨ f.path.components = g.path.components) ∧
        ({ linter with strict := true }.analyzeFiles grammar linter.root files).result =
          .error (.syntactic f.path fault)) ∧
    (∀ files', files'.Perm files →
      linter.analyzeFiles grammar linter.root files' =
        linter.analyzeFiles grammar linter.root files) ∧
    ∀ fs found, fs.isFile linter.root = false →
      Discovery.sourceFiles fs linter.configuration.files.respectIgnoreFiles linter.selection
        linter.root = .ok found →
      found.Perm files →
      linter.analyze grammar fs = linter.analyzeFiles grammar linter.root files := by
  have same := inOrder_perm files
  have report : linter.PerFile grammar files (linter.gathered grammar linter.root (inOrder files)).sort := by
    refine (gathered_perFile inFile ?_ ?_).of_perm same
    · exact same.symm.pairwise distinct fun apart => Ne.symm apart
    · exact fun f member => below f (same.mem_iff.mp member)
  refine ⟨⟨_, report, ?_, ?_⟩, ?_, ?_, ?_⟩
  · exact analyzeFiles_gathered readable fun _ _ strict => Bool.noConfusion strict
  · intro sound
    exact analyzeFiles_gathered readable fun f member _ => sound f member
  · intro faulty
    exact analyzeFiles_fault rfl readable faulty
  · intro files' same
    exact analyzeFiles_eq_of_perm same distinct
  · intro fs found directory search same
    have atRoot : linter.base fs = linter.root := by
      rw [Linter.base, directory]
      rfl
    rw [analyze_eq search, atRoot]
    exact analyzeFiles_eq_of_perm same distinct

/-- Two copies of the sample around a file that does not parse. -/
def foundSample : List FoundFile :=
  let sound := (String.ofList Outline.sampleText).toUTF8
  [⟨⟨"/p/a.ts".toList⟩, sound⟩, ⟨⟨"/p/b.ts".toList⟩, "var".toUTF8⟩, ⟨⟨"/p/c.ts".toList⟩, sound⟩]

def sampleGrammar : Grammar := fun _ text =>
  if text = Outline.sampleText then Outline.sampleTree
  else .node ⟨"program", 0, 3, none, .named⟩ [.node ⟨"ERROR", 0, 3, none, .error⟩ []]

def sampleLinter : Linter where
  root := ⟨"/p".toList⟩
  rules := [({ exemptions := ⟨false, false, false⟩ } : TopRule).toRule]
  selection := {}
  configuration := {}
  strict := false

/-- The two copies are reported in the order of their paths, and a strict run ends at the file between
them. Found in the opposite order, the files give the same. -/
theorem analyze_perFile_sample :
    let findings := (sampleLinter.gathered sampleGrammar sampleLinter.root foundSample).findings
    (foundSample.Pairwise fun f g => f.path.components ≠ g.path.components) ∧
      (∀ f ∈ foundSample, f.path.startsWith sampleLinter.root) ∧
      (∀ f ∈ foundSample, f.isReadable) ∧ (∀ rule ∈ sampleLinter.rules, rule.StaysInFile) ∧
      sampleLinter.PerFile sampleGrammar foundSample ⟨findings, 2⟩ ∧
      (sampleLinter.analyzeFiles sampleGrammar sampleLinter.root foundSample).result = .ok ⟨findings, 2⟩ ∧
      (findings.map fun f => (f.location.file.text, f.location.line, f.location.column)) =
        [("a.ts", 1, 6), ("a.ts", 2, 1), ("c.ts", 1, 6), ("c.ts", 2, 1)] ∧
      ({ sampleLinter with strict := true }.analyzeFiles sampleGrammar sampleLinter.root
        foundSample).result = .error (.syntactic ⟨"/p/b.ts".toList⟩ ⟨⟨1, 1⟩⟩) ∧
      sampleLinter.analyzeFiles sampleGrammar sampleLinter.root foundSample.reverse =
        sampleLinter.analyzeFiles sampleGrammar sampleLinter.root foundSample := by
  intro findings
  have distinct : foundSample.Pairwise fun f g => f.path.components ≠ g.path.components := by
    decide +kernel
  have below : ∀ f ∈ foundSample, f.path.startsWith sampleLinter.root := by decide +kernel
  have readable : ∀ f ∈ foundSample, f.isReadable := by decide +kernel
  have inFile : ∀ rule ∈ sampleLinter.rules, rule.StaysInFile := by
    intro rule member
    rw [List.mem_singleton.mp member]
    exact TopRule.toRule_staysInFile _
  -- files and findings are in order already, so that sorting leaves them
  have files : inOrder foundSample = foundSample := List.mergeSort_of_pairwise (by decide +kernel)
  have sorted : findings.mergeSort (fun a b => (Report.comparePlaces a b).isLE) = findings :=
    List.mergeSort_of_pairwise (by decide +kernel)
  obtain ⟨⟨report, perFile, found, -⟩, -, anyOrder, -⟩ :=
    analyze_perFile sampleLinter sampleGrammar foundSample distinct below readable inFile
  have shown : report = ⟨findings, 2⟩ := by
    have found : (sampleLinter.analyzeFiles sampleGrammar sampleLinter.root foundSample).result =
      .ok report := found
    rw [analyzeFiles_gathered readable fun _ _ strict => Bool.noConfusion strict, files] at found
    have checked :
        (sampleLinter.gathered sampleGrammar sampleLinter.root foundSample).filesChecked = 2 := by
      decide +kernel
    rw [← Except.ok.inj found, Report.sort, sorted, checked]
  subst shown
  refine ⟨distinct, below, readable, inFile, perFile, found, by decide +kernel, ?_,
    anyOrder _ foundSample.reverse_perm⟩
  rw [analyzeFiles_eq, files]
  decide +kernel

end Linter

end ScopeLint
