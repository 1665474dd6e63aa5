import HotReload.Script.Extraction
import HotReload.Storage.Files
import HotReload.World.Host

/-! # The workspace

What scripts work with and do not own: the files that their sources are in, the compiler that all of them share, the
host that carries their instances, and the log. Every operation on a script takes a workspace and hands back what has
become of it.
-/

namespace HotReload

open Body (Value)

/-- What scripts work with. -/
structure Workspace (η : Type) where
  files : Files := {}
  context : Context := {}
  host : η
  /-- What there was to report, oldest first. -/
  log : Log := []
  /-- The lines that scripts printed, oldest first. -/
  printed : List String := []
  /-- The time, in microseconds, that a compile is reported to take. -/
  lapse : Nat := 0

namespace Workspace

variable {η : Type}

/-- Adds a line to the log. -/
def say (w : Workspace η) (line : LogLine) : Workspace η := { w with log := w.log ++ [line] }

/-- Takes the lines of the log. -/
def takeLog (w : Workspace η) : Workspace η × Log := ({ w with log := [] }, w.log)

/-- Takes the printed lines. -/
def takePrinted (w : Workspace η) : Workspace η × List String := ({ w with printed := [] }, w.printed)

/-- Lets the stage tick. -/
def tick (w : Workspace Stage) (dt : Float32) : Workspace Stage :=
  let ticked := w.host.tick w.context.modules dt
  { w with host := ticked.value, log := w.log ++ ticked.log, printed := w.printed ++ ticked.printed }

/-- The source of a script. -/
def readSource (w : Workspace η) (p : Path) : Except ScriptError String :=
  match w.files.readText p with
  | .ok text => .ok text
  | .error reason => .error (.unreadable p reason)

/-- Compiles a source and finds the behaviour type in it. -/
def extract (w : Workspace η) (source : String) : Workspace η × Except ScriptError Extracted :=
  let used := w.context.extract source
  ({ w with context := used.context, log := w.log ++ used.log, printed := w.printed ++ used.printed }, used.value)

/-- Evaluates an expression with the compiler. -/
def evaluate (w : Workspace η) (expression : String) : Workspace η × Except String Value :=
  let used := w.context.evaluate expression
  ({ w with context := used.context, log := w.log ++ used.log, printed := w.printed ++ used.printed }, used.value)

/-- Asks the host for an instance of a type. -/
def addBehaviour [Host η] (w : Workspace η) (e : Entity) (type : BehaviourType) :
    Workspace η × Except HostError InstanceRef :=
  let added := Host.addBehaviour w.host w.context.modules e type
  ({ w with host := added.host, printed := w.printed ++ added.printed }, added.result)

/-- Asks the host to remove an instance. -/
def destroyBehaviour [Host η] (w : Workspace η) (r : InstanceRef) : Workspace η × Except HostError Unit :=
  let (host, result) := Host.destroyBehaviour w.host r
  ({ w with host }, result)

end Workspace

end HotReload
