import HotReload.Body.Machine
import HotReload.Report.Log
import HotReload.Types.Module
import HotReload.World.World

/-! # The host

A host carries the instances that scripts ask for. To a script it is three operations; the host of this library,
the `Stage`, is a world together with an engine that runs the statements and hooks of behaviours.

The engine has to offer what the compiler offers. So a stage can follow the module set of the compiler: before any
statement or hook runs, it installs the modules that the set has gained. The module of the stage itself is installed from
the beginning and is passed over in the set.

Statements and hooks run within a measure (`Body.runMeasure`), which the real engine does not have.
-/

namespace HotReload

open Body (Value Finished)

/-! ## Section 1 - what scripts ask of a host -/

/-- How a request for an instance ended. -/
structure Added (η : Type) where
  host : η
  result : Except HostError InstanceRef
  /-- The lines that the statements of the type printed. -/
  printed : List String := []

/-- What carries the instances of behaviours. The module set is what the statements of a type may call. -/
class Host (η : Type) where
  /-- The entity of a name. -/
  findEntity : η → String → Option Entity
  /-- Makes an instance of a type on an entity. -/
  addBehaviour : η → ModuleSet → Entity → BehaviourType → Added η
  /-- Removes an instance. -/
  destroyBehaviour : η → InstanceRef → η × Except HostError Unit

/-! ## Section 2 - the module of the stage -/

/-- What every behaviour may call: `log` prints a line, `lerp` goes part of the way from one number to another. -/
def stageModule : HostModule where
  name := "kestrel.host"
  functions :=
    [{ name := "log"
       params := [.string]
       run := fun args =>
        match args with
        | [.string message] => ⟨.ok .unit, [message]⟩
        | _ => ⟨.ok .unit, []⟩ },
     { name := "lerp"
       params := [.float, .float, .float]
       run := fun args =>
        match args with
        | [.float a, .float b, .float t] => ⟨.ok (.float (a + (b - a) * t)), []⟩
        | _ => ⟨.ok .unit, []⟩ }]

/-! ## Section 3 - the stage -/

/-- A world and the engine that runs the behaviours in it. -/
structure Stage where
  world : World := {}
  engine : Engine := [stageModule]
  /-- Whether the engine follows the module set of the compiler. -/
  following : Bool := false
  /-- How many modules of the set have been seen to. -/
  caughtUp : Nat := 0
  /-- The number of the next instance. -/
  nextInstance : Nat := 1

/-- A behaviour on an entity, in a list of them. -/
structure Summary where
  id : Nat
  type : String
  assembly : Nat
  deriving DecidableEq, Repr, Inhabited

namespace Stage

/-- Installs the modules that the set has gained. -/
def sync (s : Stage) (modules : ModuleSet) : Stage :=
  if s.following then
    { s with
      engine := s.engine ++ (modules.drop s.caughtUp).filter fun m => m.name ≠ stageModule.name
      caughtUp := modules.length }
  else s

/-- Begins to follow the module set, from its start. -/
def follow (s : Stage) (modules : ModuleSet) : Stage := { s with following := true, caughtUp := 0 }.sync modules

/-- Adds an entity that has a name and can carry behaviours. -/
def spawnNamed (s : Stage) (name : String) : Stage × Entity :=
  let (world, e) := s.world.spawn (some name) (some [])
  ({ s with world }, e)

/-- Adds an entity without behaviours. -/
def spawnBare (s : Stage) (name : Option String) : Stage × Entity :=
  let (world, e) := s.world.spawn name none
  ({ s with world }, e)

/-- Removes an entity with its behaviours, and says whether it was alive. -/
def despawn (s : Stage) (e : Entity) : Stage × Bool :=
  let (world, removed) := s.world.despawn e
  ({ s with world }, removed)

/-- The behaviours on an entity, in the order in which they run. -/
def behavioursOn (s : Stage) (e : Entity) : List Summary :=
  (s.world.instancesOn e).map fun i => ⟨i.id, i.type.name, i.type.assembly⟩

/-- How many behaviours on an entity have a type of a name. -/
def countOf (s : Stage) (e : Entity) (type : String) : Nat :=
  (s.behavioursOn e).countP fun b => b.type = type

/-- A field of the first behaviour on an entity with a type of a name. -/
def field? (s : Stage) (e : Entity) (type field : String) : Option Value :=
  match (s.world.instancesOn e).find? fun i => i.type.name = type with
  | some ⟨_, _, .map fields, _⟩ => fields.lookup field
  | _ => none

/-! ## Section 4 - instances -/

/-- Makes an instance of a type on an entity. The number of an instance is taken only when the statements of its type
have run to their end. -/
def addBehaviour (s : Stage) (modules : ModuleSet) (e : Entity) (type : BehaviourType) : Added Stage :=
  if s.world.contains e then
    -- the modules are caught up with first, because the statements may call them
    let s := s.sync modules
    let made := type.program.instantiate s.engine
    match made.result with
    | .error fault => ⟨s, .error (.refused e type.name fault.message), made.printed⟩
    | .ok fields =>
      let instance_ : Instance := ⟨s.nextInstance, type, fields, false⟩
      ⟨{ s with world := s.world.addInstance e instance_, nextInstance := s.nextInstance + 1 },
        .ok ⟨e, s.nextInstance⟩, made.printed⟩
  else ⟨s, .error (.entityNotFound e), []⟩

/-- Removes an instance. That the entity does not carry it is no error. -/
def destroyBehaviour (s : Stage) (r : InstanceRef) : Stage × Except HostError Unit :=
  if s.world.contains r.entity then ({ s with world := s.world.removeInstance r }, .ok ())
  else (s, .error (.entityNotFound r.entity))

instance : Host Stage where
  findEntity s name := s.world.findNamed name
  addBehaviour := Stage.addBehaviour
  destroyBehaviour := Stage.destroyBehaviour

end Stage

/-! ## Section 5 - ticks -/

/-- Something that ran during a tick, with what it left behind. -/
structure Ticked (α : Type) where
  value : α
  log : Log := []
  /-- The lines that hooks printed. -/
  printed : List String := []

namespace Ticked

/-- Goes on with another thing, whose lines come after those so far. -/
def andThen {α β : Type} (t : Ticked α) (f : α → Ticked β) : Ticked β :=
  let u := f t.value
  ⟨u.value, t.log ++ u.log, t.printed ++ u.printed⟩

/-- Lets the elements of a list run one after the other. -/
def forAll {α : Type} (f : α → Ticked α) : List α → Ticked (List α)
  | [] => ⟨[], [], []⟩
  | a :: rest => (f a).andThen fun a => (forAll f rest).andThen fun rest => ⟨a :: rest, [], []⟩

end Ticked

namespace Instance

/-- Calls a hook of an instance. A type without the hook is passed over in silence; every other fault is logged and
leaves the instance where it is. That goes for `exhausted` as well: where the real host would be held up by a hook that
runs beyond `Body.runMeasure`, this one logs a failure and goes on. -/
def callHook (i : Instance) (engine : Engine) (hook : String) (args : List Value) : Ticked Instance :=
  let (called, self) := i.type.program.callHook engine hook args i.self
  let log : Log := match called.result with
    | .ok _ => []
    | .error fault =>
      if fault.isMissingFunction then [] else [.error s!"{i.type.name}::{hook} failed: {fault.message}"]
  ⟨{ i with self }, log, called.printed⟩

/-- The hooks of an instance in one tick: `ready` in its first, then `process`. -/
def tick (i : Instance) (engine : Engine) (name : String) (dt : Float32) : Ticked Instance :=
  -- a `ready` that fails is not tried again
  let begun : Ticked Instance :=
    if i.ready then ⟨i, [], []⟩ else { i with ready := true }.callHook engine "ready" [.string name]
  begun.andThen fun i => i.callHook engine "process" [.string name, .float dt.toFloat]

end Instance

/-- Lets the instances on an entity run, in order. -/
def Being.tick (b : Being) (engine : Engine) (dt : Float32) : Ticked Being :=
  match b.behaviours with
  | none => ⟨b, [], []⟩
  | some instances =>
    (Ticked.forAll (fun i => i.tick engine (b.name.getD "") dt) instances).andThen fun instances =>
      ⟨{ b with behaviours := some instances }, [], []⟩

/-- Lets everything in the world run, table by table. -/
def World.tick (w : World) (engine : Engine) (dt : Float32) : Ticked World :=
  (Ticked.forAll
      (fun t : Table =>
        (Ticked.forAll (fun b => b.tick engine dt) t.rows).andThen fun rows => ⟨{ t with rows }, [], []⟩)
      w.tables).andThen
    fun tables => ⟨{ w with tables }, [], []⟩

/-- One tick of the stage: the modules are caught up with, then every instance runs. -/
def Stage.tick (s : Stage) (modules : ModuleSet) (dt : Float32) : Ticked Stage :=
  let s := s.sync modules
  (s.world.tick s.engine dt).andThen fun world => ⟨{ s with world }, [], []⟩

end HotReload
