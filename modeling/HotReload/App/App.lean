import HotReload.Script.Group

/-! # The app

A stage with one group of scripts for every entity, driven by steps. A step first lets every group answer the changes of
its scripts, then lets the stage tick, and reports what was printed and what happened to the scripts.
-/

namespace HotReload

/-- A stage with its scripts. -/
structure App where
  settings : Settings
  workspace : Workspace Stage
  registry : Registry
  groups : List ScriptGroup := []

/-- What came of a step. -/
structure StepReport where
  recompiled : Nat := 0
  printed : List String := []
  events : List Event := []
  deriving DecidableEq, Repr, Inhabited

namespace App

/-- Adds an entity with a group of scripts. -/
def spawn (a : App) (name : String) (scripts : List String) : App × Entity :=
  let (host, e) := a.workspace.host.spawnNamed name
  let (workspace, registry, group) := ScriptGroup.form { a.workspace with host } a.registry e scripts
  ({ a with workspace, registry, groups := a.groups ++ [group] }, e)

/-- Detaches an entity from its scripts and removes it. Says whether it was there. -/
def despawn (a : App) (e : Entity) : App × Bool :=
  let a :=
    match a.groups.find? fun g => g.entity = e with
    | none => a
    | some g =>
      let (workspace, registry) := g.teardown a.workspace a.registry .detachEntity
      { a with workspace, registry, groups := a.groups.eraseP fun g => g.entity = e }
  let (host, removed) := a.workspace.host.despawn e
  ({ a with workspace := { a.workspace with host } }, removed)

/-- Adds the entities that the settings name. -/
def spawnEach (a : App) : List EntitySettings → App
  | [] => a
  | e :: es => (a.spawn e.name e.scripts).1.spawnEach es

/-- Whether all identities that settings name can be resolved. -/
def canStart (s : Settings) : Bool :=
  s.entities.all fun e => e.scripts.all (Registry.ofSettings s.scripts).canResolve

/-- The app that settings call for, over some files. Markers are numbered from `firstMarker` on. -/
def start (files : Files) (settings : Settings) (firstMarker : Nat) : App :=
  let offered := Context.offering [stageModule]
  let context := { offered with logWarnings := settings.scripts.logWarnings, nextMarker := firstMarker }
  let host := ({} : Stage).follow context.modules
  let a : App :=
    { settings, workspace := { files, context, host }, registry := .ofSettings settings.scripts }
  a.spawnEach settings.entities

/-- Lets groups answer the changes of their scripts, one group after the other. Says how many scripts had any. -/
def pollEach (a : App) : List ScriptGroup → App × Nat
  | [] => (a, 0)
  | g :: gs =>
    let (workspace, registry, n) := g.poll a.workspace a.registry
    let (a, m) := pollEach { a with workspace, registry } gs
    (a, n + m)

/-- One step: changes are answered, the stage ticks, and what was printed and what happened is taken. -/
def step (a : App) (dt : Float32) : App × StepReport :=
  let (a, recompiled) := a.pollEach a.groups
  let (workspace, printed) := (a.workspace.tick dt).takePrinted
  let (registry, events) := a.registry.drainEvents
  ({ a with workspace, registry }, { recompiled, printed, events })

/-- Replaces the files, and lets the scripts take note of what a watcher sees of the change. -/
def setFiles (a : App) (files : Files) (touches : List Touch) : App :=
  { a with workspace := { a.workspace with files }, registry := a.registry.notice files touches }

/-- Takes the lines of the log. -/
def takeLog (a : App) : App × Log :=
  let (workspace, log) := a.workspace.takeLog
  ({ a with workspace }, log)

end App

end HotReload
