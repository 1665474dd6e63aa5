import HotReload.Report.Diagnostic
import HotReload.Storage.Fault
import HotReload.Storage.Path
import HotReload.World.Entity

/-! # Script errors

Why a script could not be loaded, reloaded or attached. A source that cannot be read and a host that refuses are
no compile failures; everything between the two is.
-/

namespace HotReload

/-- Why a script operation failed. -/
inductive ScriptError where
  | unreadable (path : Path) (reason : IoFault)
  | compile (report : Report)
  /-- The marker type of a unit that compiled was not to be found. -/
  | markerUnresolved (marker reason : String)
  | noBehaviour
  | ambiguous (candidates : List String)
  | host (error : HostError)
  deriving DecidableEq, Repr, Inhabited

namespace ScriptError

/-- The first error of a report, at the end of a message. -/
def firstErrorText (report : Report) : String :=
  match report.firstError? with
  | some d => s!": {d.location} {d.text}"
  | none => ""

/-- The words for an error. -/
def message : ScriptError → String
  | unreadable path reason => s!"failed to read script {path.text}: {reason.message}"
  | compile report => s!"compilation failed with {report.errors.length} error(s){firstErrorText report}"
  | markerUnresolved marker reason => s!"marker type '{marker}' could not be resolved: {reason}"
  | noBehaviour => "compiled unit does not define a behaviour type"
  | ambiguous candidates =>
    "compiled unit defines more than one behaviour type: " ++ String.intercalate ", " candidates
  | host error => error.message

/-- Whether the source is to blame. -/
def isCompileFailure : ScriptError → Bool
  | compile _ | markerUnresolved .. | noBehaviour | ambiguous _ => true
  | unreadable .. | host _ => false

/-- The report of a compile that found errors. -/
def report? : ScriptError → Option Report
  | compile report => some report
  | _ => none

end ScriptError

end HotReload
