import HotReload.Body.Machine
import HotReload.Unit.Scan

/-! # The compiler

A compiler turns units into assemblies and remembers all of them. A name stands for the type of that name
in the newest assembly that declares it. A compile that finds an error leaves the compiler as it was;
one that finds none adds one assembly: the wrapper type and the declared types in the order of the unit.
-/

namespace HotReload

open Body

/-! ## Section 1 - places of faults -/

/-- The place in the unit of a place in a body, which is given by a line and, where it is known, a column. A
fault without a place points at the declaration. -/
def Declaration.locate (d : Declaration) : Option (Nat × Option Nat) → Place
  | some (1, some column) => ⟨d.bodyPlace.line, d.bodyPlace.column + column - 1⟩
  | some (line, some column) => ⟨d.bodyPlace.line + line - 1, column⟩
  | some (line, none) => ⟨d.bodyPlace.line + line - 1, 1⟩
  | none => d.place

/-- A parse fault of a body as an error of the unit. -/
def Declaration.parseDiagnostic (d : Declaration) (fault : ParseFault) : Diagnostic :=
  .error (d.locate (some (fault.place.line, some fault.place.column))) s!"in '{d.name}': {fault.cause.message}"

/-! ## Section 2 - state -/

/-- What has been compiled so far. -/
structure Compiler where
  /-- The assemblies, in the order they were emitted. -/
  assemblies : List Assembly := []
  /-- What each name stands for, newest first. -/
  table : List (String × TypeRef) := []
  /-- The modules that expressions may call, in the order they were referenced. -/
  modules : List HostModule := []

/-- What a compile found. -/
structure CompileReport where
  success : Bool
  diagnostics : Report
  deriving DecidableEq, Repr, Inhabited

namespace Compiler

/-- A compiler that has compiled nothing. -/
def fresh : Compiler := {}

/-- The type that a name stands for. -/
def lookup (c : Compiler) (name : String) : Option TypeRef := c.table.lookup name

/-- The number of the next assembly. -/
def nextAssembly (c : Compiler) : Nat := c.assemblies.length + 1

/-- The names of the modules that have been referenced. -/
def referenced (c : Compiler) : List String := c.modules.map HostModule.name

/-! ## Section 3 - compiling -/

/-- The warning about a base that no behaviour has. -/
def baseWarnings (d : Declaration) : Report :=
  match d.base with
  | some base =>
    if behaviourBases.contains base then []
    else [.warning d.place s!"'{d.name}' derives from unknown base type '{base}'"]
  | none => []

/-- The warning about a name that already stands for a type. -/
def redefinitionWarnings (c : Compiler) (d : Declaration) : Report :=
  if (c.lookup d.name).isSome then
    [.warning d.place s!"'{d.name}' redefines a type from an earlier compilation"]
  else []

/-- The type that a declaration compiles to, with what there is to say about it. -/
def compileDeclaration (c : Compiler) (d : Declaration) : Report × Option BehaviourType :=
  let warnings := baseWarnings d ++ c.redefinitionWarnings d
  match Program.parse d.body with
  | .ok program => (warnings, some ⟨d.name, d.base, c.nextAssembly, program⟩)
  | .error fault => (warnings ++ [d.parseDiagnostic fault], none)

/-- The error of a declaration that repeats a name of its unit. -/
def repetition (d : Declaration) : Diagnostic :=
  .error d.place s!"type '{d.name}' is declared more than once in this unit"

/-- Compiles declarations in order, where `seen` holds the names that came before. -/
def compileAll (c : Compiler) (seen : List String) : List Declaration → Report × List BehaviourType
  | [] => ([], [])
  | d :: ds =>
    if d.name ∈ seen then
      -- the repeated declaration is not looked into, but those after it are
      let (report, types) := compileAll c seen ds
      (repetition d :: report, types)
    else
      let (here, type) := c.compileDeclaration d
      let (report, types) := compileAll c (d.name :: seen) ds
      (here ++ report, type.toList ++ types)

/-- Adds an assembly with the given types after its wrapper. -/
def emit (c : Compiler) (types : List BehaviourType) : Compiler :=
  let assembly : Assembly := ⟨c.nextAssembly, .wrapper c.nextAssembly :: types⟩
  { c with
    assemblies := c.assemblies ++ [assembly]
    -- the wrapper gets no entry, so no name reaches it
    table := (types.map fun t => (t.name, ⟨t, assembly⟩)).reverse ++ c.table }

/-- Compiles a unit. -/
def compile (c : Compiler) (unit : String) : Compiler × CompileReport :=
  match scan unit with
  | .error fault => (c, ⟨false, [fault.diagnostic]⟩)
  | .ok declarations =>
    let (report, types) := c.compileAll [] declarations
    if report.hasErrors then (c, ⟨false, report⟩) else (c.emit types, ⟨true, report⟩)

/-! ## Section 4 - evaluating -/

/-- The function by which expressions reach the types compiled so far. -/
def reflection (c : Compiler) : HostModule where
  name := ""
  functions :=
    [{ name := "type_ref"
       params := [.string]
       run := fun args =>
        match args with
        | [.string name] =>
          match c.lookup name with
          | some ref => ⟨.ok (.typeRef ref), []⟩
          | none => ⟨.error s!"type '{name}' is not defined", []⟩
        | _ => ⟨.error "", []⟩ }]

/-- What expressions are evaluated with: the reflection of the compiler, then the referenced modules. -/
def engine (c : Compiler) : Engine := c.reflection :: c.modules

/-- Makes a module callable, unless one of its name has been referenced. Says whether it was new. -/
def reference (c : Compiler) (m : HostModule) : Compiler × Bool :=
  if m.name ∈ c.referenced then (c, false) else ({ c with modules := c.modules ++ [m] }, true)

/-- The value of an expression, or the message of its fault, with the lines it printed. -/
def evaluate (c : Compiler) (expression : String) : Except String Value × List String :=
  match Expr.parse expression with
  | .error fault => (.error s!"Syntax error: {fault.cause.message} {positionText fault.place}", [])
  | .ok e =>
    let finished := e.evaluate c.engine
    (finished.result.mapError Fault.message, finished.printed)

end Compiler

end HotReload
