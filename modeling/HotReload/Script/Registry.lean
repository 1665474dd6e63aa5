import HotReload.Script.Reload
import HotReload.Settings.Settings

/-! # The registry

The registry keeps one script for every source. An identity, which is a name below the script root or an absolute
path, is first resolved to the normalized path of its source, so that all spellings of one source reach one script.
Scripts are never forgotten: the registry counts their users, takes a script out of service when the last one releases
it, and brings it back when somebody resolves it again.
-/

namespace HotReload

/-- What the registry knows of one source. -/
structure RegistryEntry where
  /-- The normalized path of the source. -/
  key : Path
  /-- The identity that the script was first resolved by. -/
  identity : String
  script : Script
  users : Nat := 1
  deriving Inhabited

/-- The scripts by their sources, in the order in which they were first resolved. -/
structure Registry where
  root : Path
  extension : String
  options : ScriptOptions := {}
  entries : List RegistryEntry := []
  deriving Inhabited

/-- How scripts are kept up to date, by the settings. -/
def ScriptSettings.options (s : ScriptSettings) : ScriptOptions := ⟨s.hotReload, s.watchPollMs, s.skipUnchanged⟩

namespace Registry

variable {η : Type}

/-- The empty registry that settings call for. -/
def ofSettings (s : ScriptSettings) : Registry := { root := s.root, extension := s.extension, options := s.options }

/-! ## Section 1 - identities -/

/-- Whether an identity stands for a name that lacks an extension. -/
def lacksExtension (r : Registry) (identity : String) : Bool :=
  !(Path.mk identity).isAbsolute && (r.root.join ⟨identity⟩).extension?.isNone && r.extension ≠ ""

/-- Whether an identity can be resolved: an extension that is to be added must be able to be one. -/
def canResolve (r : Registry) (identity : String) : Bool :=
  !r.lacksExtension identity || Path.canExtend r.extension

/-- The path that an identity stands for. An absolute path stands for itself; every other is seen from the script root, and
gets the extension of the registry if it has none. -/
def resolvePath (r : Registry) (identity : String) : Path :=
  let p : Path := ⟨identity⟩
  if p.isAbsolute then p
  else if r.lacksExtension identity then (r.root.join p).withExtension r.extension
  else r.root.join p

/-- The normalized path that an identity stands for. -/
def keyOf (r : Registry) (f : Files) (identity : String) : Path := f.normalize (r.resolvePath identity)

/-! ## Section 2 - entries -/

/-- The entry of a source. -/
def find? (r : Registry) (key : Path) : Option RegistryEntry := r.entries.find? fun e => e.key.Same key

/-- The entry that an identity stands for. -/
def lookup (r : Registry) (f : Files) (identity : String) : Option RegistryEntry := r.find? (r.keyOf f identity)

/-- The script of a source. -/
def script? (r : Registry) (key : Path) : Option Script := (r.find? key).map RegistryEntry.script

/-- How many users the script of an identity has. -/
def users (r : Registry) (f : Files) (identity : String) : Nat :=
  ((r.lookup f identity).map RegistryEntry.users).getD 0

/-- Changes the entry of a source. -/
def modify (r : Registry) (key : Path) (f : RegistryEntry → RegistryEntry) : Registry :=
  { r with entries := r.entries.map fun e => if e.key.Same key then f e else e }

/-- Puts another state of a script in place of the one so far. -/
def setScript (r : Registry) (key : Path) (s : Script) : Registry := r.modify key fun e => { e with script := s }

/-- Does something to the script of a source, if there is one. -/
def visit {α : Type} (w : Workspace η) (r : Registry) (key : Path)
    (f : Workspace η → Script → Workspace η × Script × α) : Workspace η × Registry × Option α :=
  match r.script? key with
  | none => (w, r, none)
  | some s =>
    let (w, s, a) := f w s
    (w, r.setScript key s, some a)

/-- Asks the script of an identity for a recompile. Says whether there is one. -/
def requestReload (r : Registry) (f : Files) (identity : String) : Registry × Bool :=
  match r.lookup f identity with
  | some entry => (r.modify entry.key fun e => { e with script := e.script.requestReload }, true)
  | none => (r, false)

/-- The number of entries. -/
def size (r : Registry) : Nat := r.entries.length

/-- The entries in the order of their identities. -/
def sorted (r : Registry) : List RegistryEntry := r.entries.mergeSort fun a b => a.identity ≤ b.identity

/-- The identities that scripts were first resolved by, in order. -/
def identities (r : Registry) : List String := r.sorted.map RegistryEntry.identity

/-- Lets every script take note of what a change of the files lets a watcher see. -/
def notice (r : Registry) (f : Files) (touches : List Touch) : Registry :=
  { r with entries := r.entries.map fun e => { e with script := e.script.notice f touches } }

/-! ## Section 3 - users -/

/-- Takes the script of an identity into use. The script is loaded if it is new, and brought back into service if it is
not. Hands back the key of its entry. -/
def resolve (w : Workspace η) (r : Registry) (identity : String) :
    Workspace η × Registry × Except ScriptError Path :=
  let key := r.keyOf w.files identity
  match r.find? key with
  | some entry =>
    let (w, script) := entry.script.resume w
    (w, r.modify key fun e => { e with script, users := e.users + 1 }, .ok entry.key)
  | none =>
    match Script.load w identity key r.options with
    | (w, .error error) => (w, r, .error error)
    | (w, .ok script) => (w, { r with entries := r.entries ++ [{ key, identity, script }] }, .ok key)

/-- Gives up one use of the script of an identity. Says whether the script is out of service by that. -/
def release (r : Registry) (f : Files) (identity : String) : Registry × Bool :=
  let key := r.keyOf f identity
  match r.find? key with
  | none => (r, false)
  | some entry =>
    -- an entry without users stays without users
    let users := entry.users - 1
    if users > 0 then (r.modify key fun e => { e with users }, false)
    else (r.modify key fun e => { e with users, script := e.script.discard }, true)

/-! ## Section 4 - all scripts -/

variable [Host η]

/-- Lets the script of a source answer its changes. Says whether there were any. -/
def update (w : Workspace η) (r : Registry) (key : Path) : Workspace η × Registry × Bool :=
  let (w, r, ran) := r.visit w key Script.update
  (w, r, ran.getD false)

/-- Lets scripts answer their changes one after the other. Says how many had any. -/
def updateEach (w : Workspace η) (r : Registry) : List Path → Workspace η × Registry × Nat
  | [] => (w, r, 0)
  | key :: keys =>
    let (w, r, ran) := update w r key
    let (w, r, n) := updateEach w r keys
    (w, r, if ran then n + 1 else n)

/-- Lets every script answer its changes, in the order of the identities. -/
def pollAll (w : Workspace η) (r : Registry) : Workspace η × Registry × Nat :=
  updateEach w r (r.sorted.map RegistryEntry.key)

/-- Takes the events of all scripts, in the order of the identities. -/
def drainEvents (r : Registry) : Registry × List Event :=
  ({ r with entries := r.entries.map fun e => { e with script := e.script.drainEvents.1 } },
    r.sorted.flatMap fun e => e.script.drainEvents.2)

end Registry

end HotReload
