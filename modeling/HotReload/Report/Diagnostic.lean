import HotReload.Text.Place

/-! # Diagnostics

What a compile has to say about a unit: a list of errors and warnings, each at a place of the unit.
A report fails exactly when it holds an error.
-/

namespace HotReload

/-- How serious a diagnostic is. -/
inductive Severity where
  | error
  | warning
  deriving DecidableEq, Repr, Inhabited

/-- The word for a severity. -/
def Severity.label : Severity → String
  | .error => "error"
  | .warning => "warning"

/-- One message of the compiler, with the place it speaks of. -/
structure Diagnostic where
  severity : Severity
  place : Place
  text : String
  deriving DecidableEq, Repr, Inhabited

namespace Diagnostic

/-- A diagnostic that fails the compile. -/
def error (place : Place) (text : String) : Diagnostic := ⟨.error, place, text⟩

/-- A diagnostic that does not fail the compile. -/
def warning (place : Place) (text : String) : Diagnostic := ⟨.warning, place, text⟩

/-- Whether a diagnostic fails the compile. -/
def isError (d : Diagnostic) : Bool := d.severity = .error

/-- Whether a diagnostic leaves the compile alone. -/
def isWarning (d : Diagnostic) : Bool := d.severity = .warning

/-- The place of a diagnostic, as it stands in messages. -/
def location (d : Diagnostic) : String := s!"({d.place.line},{d.place.column})"

/-- A diagnostic as one line: place, severity, text. -/
def render (d : Diagnostic) : String := s!"{d.location} {d.severity.label}: {d.text}"

@[simp] theorem isError_error (p : Place) (t : String) : (error p t).isError = true := rfl

@[simp] theorem isError_warning (p : Place) (t : String) : (warning p t).isError = false := rfl

theorem isWarning_eq_not_isError (d : Diagnostic) : d.isWarning = !d.isError := by
  cases h : d.severity <;> simp [isWarning, isError, h]

end Diagnostic

/-- The diagnostics of one compile, in the order they were found. -/
abbrev Report := List Diagnostic

namespace Report

/-- The errors of a report, in order. -/
def errors (r : Report) : Report := r.filter Diagnostic.isError

/-- The warnings of a report, in order. -/
def warnings (r : Report) : Report := r.filter Diagnostic.isWarning

/-- Whether the compile failed. -/
def hasErrors (r : Report) : Bool := r.any Diagnostic.isError

/-- The first error, which stands for the whole report in one-line summaries. -/
def firstError? (r : Report) : Option Diagnostic := r.find? Diagnostic.isError

theorem hasErrors_eq_false_iff {r : Report} : hasErrors r = false ↔ errors r = [] := by
  simp [hasErrors, errors, List.filter_eq_nil_iff]

end Report

end HotReload
