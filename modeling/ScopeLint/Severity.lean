/-!
# Severities
-/

namespace ScopeLint

/-- How grave a finding is, the gravest last. -/
inductive Severity where
  | info
  | warning
  | error
  deriving DecidableEq, Repr

namespace Severity

def rank : Severity → Nat
  | info => 0
  | warning => 1
  | error => 2

instance : LE Severity := ⟨fun a b => a.rank ≤ b.rank⟩

instance (a b : Severity) : Decidable (a ≤ b) :=
  inferInstanceAs (Decidable (a.rank ≤ b.rank))

def name : Severity → String
  | info => "info"
  | warning => "warning"
  | error => "error"

/-- All severities, the least grave first. -/
def all : List Severity := [info, warning, error]

def ofName? (name : String) : Option Severity :=
  all.find? fun s => s.name = name

@[simp] theorem ofName?_name (s : Severity) : ofName? s.name = some s := by
  cases s <;> decide

end Severity

end ScopeLint
