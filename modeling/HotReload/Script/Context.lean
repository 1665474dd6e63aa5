import HotReload.Report.Log
import HotReload.Script.ScriptError
import HotReload.Types.Compiler

/-! # The compilation context

All scripts compile through one compiler. The context holds it together with the modules that the host offers: the
first use of the compiler references all of them, and a module that is added later is referenced at once. Reports go to
the log line by line.
-/

namespace HotReload

open Body (Value)

/-- A compiler and what it is to be given. -/
structure Context where
  compiler : Compiler := .fresh
  /-- The modules that the host offers. -/
  modules : ModuleSet := []
  /-- Whether the compiler has been used. -/
  bootstrapped : Bool := false
  /-- Whether warnings of the compiler are logged. -/
  logWarnings : Bool := false
  /-- The number of the next marker type. -/
  nextMarker : Nat := 1

/-- A use of the context, with what it left behind. -/
structure Used (α : Type) where
  context : Context
  value : α
  log : Log := []
  /-- The lines that evaluated expressions printed. -/
  printed : List String := []

namespace Context

/-- A context that offers some modules. -/
def offering (modules : List HostModule) : Context := { modules := ModuleSet.ofList modules }

/-- Offers a module, unless one of its name is offered. -/
def addModule (c : Context) (m : HostModule) : Context :=
  if c.modules.holds m.name then c
  else
    let c := { c with modules := c.modules.add m }
    if c.bootstrapped then { c with compiler := (c.compiler.reference m).1 } else c

/-- References modules one after the other, and logs those that are new to the compiler. -/
def referenceAll (compiler : Compiler) : List HostModule → Compiler × Log
  | [] => (compiler, [])
  | m :: rest =>
    let (compiler, added) := compiler.reference m
    let (compiler, log) := referenceAll compiler rest
    (compiler, if added then .info s!"referenced host module '{m.name}'" :: log else log)

/-- Prepares the compiler for its first use. -/
def bootstrap (c : Context) : Context × Log :=
  if c.bootstrapped then (c, [])
  else
    let (compiler, log) := referenceAll c.compiler c.modules
    ({ c with compiler, bootstrapped := true }, log)

/-- Compiles a unit. -/
def compile (c : Context) (unit : String) : Used (Except ScriptError Report) :=
  let (c, log) := c.bootstrap
  let (compiler, report) := c.compiler.compile unit
  { context := { c with compiler }
    value := if report.success then .ok report.diagnostics else .error (.compile report.diagnostics)
    log := log ++ report.diagnostics.logLines c.logWarnings }

/-- Evaluates an expression. -/
def evaluate (c : Context) (expression : String) : Used (Except String Value) :=
  let (c, log) := c.bootstrap
  let (value, printed) := c.compiler.evaluate expression
  { context := c, value, log, printed }

end Context

end HotReload
