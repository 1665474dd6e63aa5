import HotReload.Report.Diagnostic

/-! # The log

Every part of the library reports to one log, a list of lines with the oldest first. A report reaches
the log line by line: errors always, warnings only where they are asked for.
-/

namespace HotReload

/-- One line of the log. -/
inductive LogLine where
  | error (text : String)
  | warning (text : String)
  | info (text : String)
  deriving DecidableEq, Repr, Inhabited

namespace LogLine

/-- What a line says. -/
def text : LogLine → String
  | .error t | .warning t | .info t => t

/-- Whether a line goes to the error channel of a console. -/
def isTrouble : LogLine → Bool
  | .info _ => false
  | _ => true

/-- A line as a console shows it, after the tag of the part that wrote it. -/
def render (tag : String) : LogLine → String
  | .error t => s!"[{tag}] error: {t}"
  | .warning t => s!"[{tag}] warning: {t}"
  | .info t => s!"[{tag}] {t}"

end LogLine

/-- The lines of a log, oldest first. -/
abbrev Log := List LogLine

namespace Log

/-- The texts of the error lines. -/
def errorTexts (log : Log) : List String :=
  log.filterMap fun
    | .error t => some t
    | _ => none

/-- The texts of the warning lines. -/
def warningTexts (log : Log) : List String :=
  log.filterMap fun
    | .warning t => some t
    | _ => none

end Log

namespace Diagnostic

/-- The lines of the log for one diagnostic. A warning carries no place and may be held back. -/
def logLines (logWarnings : Bool) (d : Diagnostic) : Log :=
  match d.severity with
  | .error => [.error s!"{d.location} {d.text}"]
  | .warning => if logWarnings then [.warning d.text] else []

end Diagnostic

/-- The lines of the log for a whole report. -/
def Report.logLines (logWarnings : Bool) (r : Report) : Log :=
  r.flatMap (Diagnostic.logLines logWarnings)

end HotReload
