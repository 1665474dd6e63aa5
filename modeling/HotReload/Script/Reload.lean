import HotReload.Script.Script

/-! # Loading and reloading

A script is loaded by reading and compiling its source, and reloaded by doing so again: all its instances are removed, the
source is compiled, and the new type is given to the same entities in the same order. Where the source cannot be read or
compiled the entities are kept in suspension.

A change of the source only raises a signal. The owner of a script answers it by `Script.update`, at most once for all
the changes since the last answer.
-/

namespace HotReload

namespace Script

variable {η : Type}

/-- Microseconds in whole milliseconds, for the log. -/
def inMilliseconds (elapsed : Nat) : String := s!"in {Event.milliseconds elapsed} ms"

/-! ## Section 1 - loading -/

/-- The script of a source that has been read. A source that does not compile makes no script. -/
def ofSource (w : Workspace η) (identity : String) (p : Path) (options : ScriptOptions) (source : String) :
    Workspace η × Except ScriptError Script :=
  match w.extract source with
  | (w, .error error) => (w, .error error)
  | (w, .ok extracted) =>
    let type := extracted.behaviour
    let w := w.say (.info s!"compiled '{identity}' as {type.name} {inMilliseconds w.lapse}")
    let script : Script := { identity, path := p, options, compiled := some type, source := some source }
    (w, .ok (script.push (.compiled identity type.name script.generation w.lapse)))

/-- Reads and compiles a source, then starts to watch it. -/
def load (w : Workspace η) (identity : String) (p : Path) (options : ScriptOptions) :
    Workspace η × Except ScriptError Script :=
  match w.readSource p with
  | .error error => (w, .error error)
  | .ok source =>
    match ofSource w identity p options source with
    | (w, .error error) => (w, .error error)
    | (w, .ok script) =>
      let (w, script) := startWatch w script
      (w, .ok script)

/-! ## Section 2 - reloading -/

variable [Host η]

/-- Removes all instances from the host, and leaves the script without a type. -/
def strip (w : Workspace η) (s : Script) : Workspace η × Script :=
  (s.attachments.foldl (fun w a => destroyInstance w s a) w,
    { s with attachments := [], suspended := [], compiled := none, source := none })

/-- Gives entities instances of a type, one after the other. An entity that the host refuses is dropped. -/
def readd (w : Workspace η) (s : Script) (type : BehaviourType) : List Entity → Workspace η × Script
  | [] => (w, s)
  | e :: es =>
    match w.addBehaviour e type with
    | (w, .ok ref) => readd w (s.link e ref) type es
    | (w, .error error) =>
      readd (w.say (.error s!"'{s.identity}' could not reattach {type.name}: {error.message}")) s type es

/-- The words for a number of entities. -/
def entityCount (n : Nat) : String := if n = 1 then "1 entity" else s!"{n} entities"

/-- Leaves a script without a type, with all its entities in suspension. -/
def suspendAll (w : Workspace η) (s : Script) (entities : List Entity) (error : ScriptError) :
    Workspace η × Script :=
  let lost := entityCount entities.length
  (w.say (.error s!"'{s.identity}' failed to recompile, {lost} left without behaviour: {error.message}"),
    push { s with suspended := entities } (.recompileFailed s.identity error.message entities.length))

/-- Puts a script into service with a new type, on the given entities. -/
def renew (w : Workspace η) (s : Script) (type : BehaviourType) (source : String) (entities : List Entity) :
    Workspace η × Script :=
  let (w, s) :=
    readd w { s with generation := s.generation + 1, compiled := some type, source := some source } type entities
  let count := s.attachments.length
  let said := s!"recompiled '{s.identity}' as {type.name} (generation {s.generation})"
  (w.say (.info s!"{said} {inMilliseconds w.lapse}, {count} reattached"),
    s.push (.recompiled s.identity type.name s.generation count w.lapse))

/-- Whether a text is the one that the type of a script was compiled from, so that there is nothing to do. -/
def isUnchanged (s : Script) (text : Except ScriptError String) : Bool :=
  match text with
  | .ok text => s.options.skipUnchanged && s.compiled.isSome && s.source = some text
  | .error _ => false

/-- Reloads a script from a source that has been read, or could not be. -/
def recompileFrom (w : Workspace η) (s : Script) (text : Except ScriptError String) :
    Workspace η × Script × Except ScriptError Unit :=
  if s.isUnchanged text then (w, s.push (.recompileSkipped s.identity), .ok ())
  else
    -- the roster is noted down before it is emptied: whatever follows is about the same entities
    let entities := s.roster
    let (w, s) := strip w s
    match text with
    | .error error =>
      let (w, s) := suspendAll w s entities error
      (w, s, .error error)
    | .ok source =>
      match w.extract source with
      | (w, .error error) =>
        let (w, s) := suspendAll w s entities error
        (w, s, .error error)
      | (w, .ok extracted) =>
        let (w, s) := renew w s extracted.behaviour source entities
        (w, s, .ok ())

/-- Reads the source again and reloads the script from it. -/
def recompile (w : Workspace η) (s : Script) : Workspace η × Script × Except ScriptError Unit :=
  recompileFrom w s (w.readSource s.path)

/-- Takes the signal of a script in service. Says whether it was raised. -/
def takeSignal (s : Script) : Script × Bool :=
  if s.discarded then (s, false)
  else
    let (signal, raised) := s.signal.take
    ({ s with signal }, raised)

/-- Answers the changes since the last answer, if there are any. Says whether there were. A failure leaves its trace in
the log and in the events. -/
def update (w : Workspace η) (s : Script) : Workspace η × Script × Bool :=
  match s.takeSignal with
  | (s, false) => (w, s, false)
  | (s, true) =>
    let (w, s, _) := recompile w s
    (w, s, true)

end Script

end HotReload
