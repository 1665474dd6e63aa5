import HotReload.Settings.Reader
import HotReload.Settings.Record
import HotReload.Storage.Files

/-! # Settings

What a run is told: where the scripts are and how they are reloaded, how fast the world ticks, and which entities it
begins with. Settings come from a JSON document, which may leave out whatever is to keep its default, and from the
command line, which overrides some of them.
-/

namespace HotReload

/-! ## Section 1 - what is set -/

namespace ScriptSettings

/-- The folder of scripts if no other is named. -/
def defaultRoot : Path := ⟨"assets/scripts"⟩

def defaultExtension : String := "rhai"

def defaultHotReload : Bool := true

def defaultWatchPollMs : Nat := 300

end ScriptSettings

/-- How scripts are found and reloaded. The values given here are those of settings that nobody has written down;
a document that leaves out a field goes by the default of the field. -/
structure ScriptSettings where
  /-- The folder that scripts are named from. -/
  root : Path := ScriptSettings.defaultRoot
  /-- What is added to names without an extension. -/
  extension : String := ScriptSettings.defaultExtension
  logWarnings : Bool := false
  hotReload : Bool := ScriptSettings.defaultHotReload
  watchPollMs : Nat := ScriptSettings.defaultWatchPollMs
  /-- Whether a source that has not changed is not compiled again. -/
  skipUnchanged : Bool := false
  deriving DecidableEq, Repr, Inhabited

/-- The time of a tick if no other is given. -/
def TickSettings.defaultTickMs : Nat := 16

/-- How the world ticks. -/
structure TickSettings where
  tickMs : Nat := TickSettings.defaultTickMs
  /-- The number of ticks; zero stands for no end. -/
  ticks : Nat := 0
  deriving DecidableEq, Repr, Inhabited

/-- An entity that the world begins with. -/
structure EntitySettings where
  name : String := ""
  scripts : List String := []
  deriving DecidableEq, Repr, Inhabited

/-- All that a run is told. -/
structure Settings where
  scripts : ScriptSettings := {}
  host : TickSettings := {}
  entities : List EntitySettings := []
  deriving DecidableEq, Repr, Inhabited

/-! ## Section 2 - the document -/

/-- How script settings are written. -/
def ScriptSettings.shape : Shape ScriptSettings where
  name := "ScriptConfig"
  seed := ⟨⟨""⟩, "", false, false, 0, false⟩
  fields :=
    [{ name := "root", absent := some fun s => { s with root := defaultRoot }
       put := fun s d => (d.asText "path string").map fun v => { s with root := ⟨v⟩ } },
     { name := "extension", absent := some fun s => { s with extension := defaultExtension }
       put := fun s d => (d.asText "a string").map fun v => { s with extension := v } },
     { name := "log_warnings", absent := some fun s => { s with logWarnings := false }
       put := fun s d => d.asBool.map fun v => { s with logWarnings := v } },
     { name := "hot_reload", absent := some fun s => { s with hotReload := defaultHotReload }
       put := fun s d => d.asBool.map fun v => { s with hotReload := v } },
     { name := "watch_poll_ms", absent := some fun s => { s with watchPollMs := defaultWatchPollMs }
       put := fun s d => d.asNatural.map fun v => { s with watchPollMs := v } },
     { name := "skip_unchanged", absent := some fun s => { s with skipUnchanged := false }
       put := fun s d => d.asBool.map fun v => { s with skipUnchanged := v } }]

/-- How tick settings are written. -/
def TickSettings.shape : Shape TickSettings where
  name := "HostConfig"
  seed := ⟨0, 0⟩
  fields :=
    [{ name := "tick_ms", absent := some fun s => { s with tickMs := defaultTickMs }
       put := fun s d => d.asNatural.map fun v => { s with tickMs := v } },
     { name := "ticks", absent := some fun s => { s with ticks := 0 }
       put := fun s d => d.asNatural.map fun v => { s with ticks := v } }]

/-- How an entity is written. -/
def EntitySettings.shape : Shape EntitySettings where
  name := "EntityConfig"
  seed := ⟨"", []⟩
  fields :=
    [{ name := "name", absent := none
       put := fun s d => (d.asText "a string").map fun v => { s with name := v } },
     { name := "scripts", absent := some fun s => { s with scripts := [] }
       put := fun s d => (d.asList (Document.asText "a string")).map fun v => { s with scripts := v } }]

/-- How settings are written. -/
def Settings.shape : Shape Settings where
  name := "ScriptingConfig"
  seed := ⟨ScriptSettings.shape.seed, TickSettings.shape.seed, []⟩
  fields :=
    [{ name := "scripts", absent := some fun s => { s with scripts := {} }
       put := fun s d => (ScriptSettings.shape.read d).map fun v => { s with scripts := v } },
     { name := "host", absent := some fun s => { s with host := {} }
       put := fun s d => (TickSettings.shape.read d).map fun v => { s with host := v } },
     { name := "entities", absent := some fun s => { s with entities := [] }
       put := fun s d => (d.asList EntitySettings.shape.read).map fun v => { s with entities := v } }]

/-- The settings in the bytes of a document. Nothing may follow the document. -/
def Settings.ofBytes (bytes : ByteArray) : Except DocumentFault Settings :=
  let (document, surplus) := Document.ofBytes bytes
  match Settings.shape.read document, surplus with
  | .error fault, _ => .error fault
  | .ok _, some fault => .error fault
  | .ok settings, none => .ok settings

/-! ## Section 3 - the file -/

/-- Why no settings could be read from a file. -/
inductive SettingsFault where
  | unreadable (path : Path) (reason : IoFault)
  | malformed (path : Path) (reason : DocumentFault)
  deriving Inhabited

namespace SettingsFault

/-- What went wrong. -/
def message : SettingsFault → String
  | unreadable path _ => s!"Failed to read config file {path.text}"
  | malformed path _ => s!"Failed to parse config file {path.text}"

/-- Why it went wrong. -/
def reason : SettingsFault → String
  | unreadable _ fault => fault.message
  | malformed _ fault => fault.message

/-- What went wrong and why, in one line. -/
def chain (f : SettingsFault) : String := s!"{f.message}: {f.reason}"

/-- The notice that the defaults are taken instead. -/
def notice (f : SettingsFault) : String :=
  s!"[config] {f.message}\n\nCaused by:\n    {f.reason}. Falling back to defaults."

end SettingsFault

/-- The settings in a file. -/
def Settings.load (f : Files) (p : Path) : Except SettingsFault Settings :=
  match f.readBytes p with
  | .error reason => .error (.unreadable p reason)
  | .ok bytes =>
    match Settings.ofBytes bytes with
    | .error reason => .error (.malformed p reason)
    | .ok settings => .ok settings

/-- The settings in a file, or else the defaults and the notice that says so. -/
def Settings.loadOrDefault (f : Files) (p : Path) : Settings × Option String :=
  match Settings.load f p with
  | .ok settings => (settings, none)
  | .error fault => ({}, some fault.notice)

/-! ## Section 4 - overrides -/

/-- The settings that the command line may give. -/
structure Overrides where
  scriptRoot : Option Path := none
  ticks : Option Nat := none
  logWarnings : Option Bool := none
  hotReload : Option Bool := none
  deriving DecidableEq, Repr, Inhabited

namespace Overrides

/-- Whether nothing is given. -/
def isEmpty (o : Overrides) : Bool :=
  o.scriptRoot.isNone && o.ticks.isNone && o.logWarnings.isNone && o.hotReload.isNone

/-- The names of what is given. -/
def given (o : Overrides) : List String :=
  (if o.scriptRoot.isSome then ["script_root"] else []) ++ (if o.ticks.isSome then ["ticks"] else []) ++
    (if o.logWarnings.isSome then ["log_warnings"] else []) ++ (if o.hotReload.isSome then ["hot_reload"] else [])

end Overrides

/-- Settings with overrides in place of what they give. -/
def Settings.override (s : Settings) (o : Overrides) : Settings :=
  { s with
    scripts :=
      { s.scripts with
        root := o.scriptRoot.getD s.scripts.root
        logWarnings := o.logWarnings.getD s.scripts.logWarnings
        hotReload := o.hotReload.getD s.scripts.hotReload }
    host := { s.host with ticks := o.ticks.getD s.host.ticks } }

end HotReload
