import HotReload.Script.Event
import HotReload.Script.Workspace
import HotReload.Storage.Watch

/-! # Scripts

A script is one source file together with the entities that want an instance of the type in it. It holds that type as
long as the last compile succeeded: then every entity it knows is attached, which means that it carries an instance.
After a failed compile there is no type, and all its entities are suspended until a later compile succeeds.
-/

namespace HotReload

/-! ## Section 1 - the state of a script -/

/-- How a script is kept up to date. -/
structure ScriptOptions where
  hotReload : Bool := true
  watchPollMs : Nat := 300
  skipUnchanged : Bool := false
  deriving DecidableEq, Repr, Inhabited

/-- An entity together with the instance that it carries for a script. -/
structure Attachment where
  entity : Entity
  ref : InstanceRef
  deriving DecidableEq, Repr, Inhabited

/-- A source file and the entities that want an instance of its type. -/
structure Script where
  identity : String
  path : Path
  options : ScriptOptions := {}
  /-- The type of the last compile, if that succeeded. -/
  compiled : Option BehaviourType := none
  /-- The text that the type was compiled from. -/
  source : Option String := none
  attachments : List Attachment := []
  /-- The entities that wait for a compile to succeed. -/
  suspended : List Entity := []
  /-- How many compiles have succeeded. -/
  generation : Nat := 1
  /-- Raised when the source has changed. -/
  signal : Signal := {}
  watch : Option Watch := none
  /-- A script that nobody uses is out of service. -/
  discarded : Bool := false
  events : EventQueue := {}
  deriving Inhabited

/-- How a script stands. -/
inductive ScriptState where
  | compiled
  /-- A change waits for an answer. -/
  | dirty
  /-- The last compile failed. -/
  | failed
  | discarded
  deriving DecidableEq, Repr, Inhabited

namespace Script

/-- How a script stands, the most pressing first. -/
def state (s : Script) : ScriptState :=
  if s.discarded then .discarded
  else if s.signal.raised then .dirty
  else if s.compiled.isNone then .failed
  else .compiled

/-- The entities that carry an instance, in the order in which they were attached. -/
def attached (s : Script) : List Entity := s.attachments.map Attachment.entity

/-- Whether an entity carries an instance. -/
def isAttached (s : Script) (e : Entity) : Bool := s.attached.contains e

/-- All entities of a script. -/
def roster (s : Script) : List Entity := s.attached ++ s.suspended

/-- The instance on an entity. -/
def instanceOn (s : Script) (e : Entity) : Option InstanceRef :=
  (s.attachments.find? fun a => a.entity = e).map Attachment.ref

/-- Whether the source is watched. -/
def isWatching (s : Script) : Bool := s.watch.isSome

/-- Asks for a recompile, as a change of the source does. -/
def requestReload (s : Script) : Script := { s with signal := s.signal.raise }

/-- Reports an event. -/
def push (s : Script) (e : Event) : Script := { s with events := s.events.push e }

/-- Takes note of an instance on an entity. -/
def link (s : Script) (e : Entity) (ref : InstanceRef) : Script :=
  { s with attachments := s.attachments ++ [⟨e, ref⟩] }

/-- Takes the events that wait. -/
def drainEvents (s : Script) : Script × List Event :=
  let (events, taken) := s.events.drain
  ({ s with events }, taken)

/-- Takes note of what a change of the files lets a watcher see. -/
def notice (s : Script) (f : Files) (touches : List Touch) : Script :=
  match s.watch with
  | some watch => if touches.any (watch.sees f) then s.requestReload else s
  | none => s

variable {η : Type}

/-! ## Section 2 - watching -/

/-- Starts to watch the source, if that is wanted and not so already. A source that cannot be watched is reported. -/
def startWatch (w : Workspace η) (s : Script) : Workspace η × Script :=
  if !s.options.hotReload ∨ s.watch.isSome then (w, s)
  else
    match Watch.start w.files s.path with
    | .ok watch => (w, { s with watch := some watch })
    | .error fault => (w.say (.warning s!"hot reload disabled for '{s.identity}': {fault.message}"), s)

/-- Takes a script out of service: its source is no longer watched. What is attached stays attached. -/
def discard (s : Script) : Script :=
  if s.discarded then s
  else push { s with watch := none, discarded := true } (.discarded s.identity)

/-- Brings a script back into service. -/
def resume (w : Workspace η) (s : Script) : Workspace η × Script :=
  if s.discarded then startWatch w { s with discarded := false } else (w, s)

/-! ## Section 3 - entities -/

variable [Host η]

/-- Removes the instance of an attachment from its host. -/
def destroyInstance (w : Workspace η) (s : Script) (a : Attachment) : Workspace η :=
  match w.destroyBehaviour a.ref with
  | (w, .ok _) => w
  | (w, .error error) => w.say (.error s!"'{s.identity}' could not detach from entity: {error.message}")

/-- Gives an entity an instance, unless it has one. Without a type the entity has to wait for one. -/
def attach (w : Workspace η) (s : Script) (e : Entity) : Workspace η × Script × Except HostError Unit :=
  if s.isAttached e then (w, s, .ok ())
  else
    match s.compiled with
    | none => (w, if e ∈ s.suspended then s else { s with suspended := s.suspended ++ [e] }, .ok ())
    | some type =>
      match w.addBehaviour e type with
      | (w, .ok ref) =>
        (w, (s.link e ref).push (.attached s.identity e), .ok ())
      | (w, .error error) =>
        (w.say (.error s!"'{s.identity}' could not attach {type.name}: {error.message}"), s, .error error)

/-- Drops an entity and removes its instance. Says whether the script knew the entity. -/
def detach (w : Workspace η) (s : Script) (e : Entity) : Workspace η × Script × Bool :=
  let waited := s.suspended.contains e
  let s := { s with suspended := s.suspended.filter (· ≠ e) }
  match s.attachments.find? fun a => a.entity = e with
  | none => (w, s, waited)
  | some a =>
    let s := { s with attachments := s.attachments.eraseP fun a => a.entity = e }
    (destroyInstance w s a, s.push (.detached s.identity e), true)

/-- Drops entities one after the other. -/
def detachEach (w : Workspace η) (s : Script) : List Entity → Workspace η × Script
  | [] => (w, s)
  | e :: es =>
    let (w, s, _) := detach w s e
    detachEach w s es

/-- Drops all entities. Says how many carried an instance. -/
def detachAll (w : Workspace η) (s : Script) : Workspace η × Script × Nat :=
  let entities := s.attached
  let (w, s) := detachEach w { s with suspended := [] } entities
  (w, s, entities.length)

/-- Attaches entities one after the other. Says how many succeeded. -/
def attachEach (w : Workspace η) (s : Script) : List Entity → Workspace η × Script × Nat
  | [] => (w, s, 0)
  | e :: es =>
    let (w, s, result) := attach w s e
    let (w, s, n) := attachEach w s es
    (w, s, if result.isOk then n + 1 else n)

/-- Attaches the suspended entities, if there is a type. Says how many got an instance. -/
def reattach (w : Workspace η) (s : Script) : Workspace η × Script × Nat :=
  if s.compiled.isNone then (w, s, 0) else attachEach w { s with suspended := [] } s.suspended

end Script

end HotReload
