import ScopeLint.Finding

/-!
# Reports

The findings of a run and the number of files it checked. Reports are sorted by file, line and
column; files compare by their components, so the order does not depend on how a path is spelled, and
findings at one place keep the order in which they were found.
-/

namespace ScopeLint

structure Report where
  findings : List Finding := []
  filesChecked : Nat := 0
  deriving DecidableEq, Repr

namespace Report

def count (r : Report) (severity : Severity) : Nat :=
  r.findings.countP (·.severity = severity)

/-- The findings of one severity. -/
def only (r : Report) (severity : Severity) : List Finding :=
  r.findings.filter (·.severity = severity)

/-- Whether some finding is at least as grave as the threshold. -/
def reaches (r : Report) (threshold : Severity) : Bool :=
  r.findings.any fun f => threshold ≤ f.severity

/-- The line that counts findings and files. -/
def tally (r : Report) : String :=
  s!"Found {r.count .error} error(s), {r.count .warning} warning(s), {r.count .info} info(s) " ++
    s!"in {r.filesChecked} file(s)"

/-- The report as plain text: a paragraph and an empty line for each finding, then the tally. -/
def plainText (r : Report) : String :=
  String.join (r.findings.map fun f => f.paragraph ++ "\n") ++ r.tally

def comparePlaces (a b : Finding) : Ordering :=
  (compare a.location.file.key b.location.file.key).then
    ((compare a.location.line b.location.line).then
      (compare a.location.column b.location.column))

def sort (r : Report) : Report :=
  { r with findings := r.findings.mergeSort fun a b => (comparePlaces a b).isLE }

def append (r s : Report) : Report :=
  { findings := r.findings ++ s.findings, filesChecked := r.filesChecked + s.filesChecked }

/-- Add a report that was given from outside; the number of files is kept in 64 bits. -/
def extend (r s : Report) : Report :=
  { r.append s with filesChecked := (r.filesChecked + s.filesChecked) % Nat.pow 2 64 }

end Report

end ScopeLint
