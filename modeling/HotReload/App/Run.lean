import HotReload.App.App
import HotReload.App.Clock
import HotReload.Settings.CommandLine

/-! # Runs

A run starts an app as the command line and the settings call for, and shows on a console what happens in it. The
console has two channels: errors and warnings go to one, all else to the other.
-/

namespace HotReload

/-- A text on the console, with its channel. -/
structure ConsoleLine where
  /-- Whether it goes to the channel for errors and warnings. -/
  trouble : Bool := false
  text : String
  deriving DecidableEq, Repr, Inhabited

/-- The lines of a log on the console, after a tag. -/
def Log.console (tag : String) (log : Log) : List ConsoleLine :=
  log.map fun line => ⟨line.isTrouble, line.render tag⟩

namespace Run

/-- The settings of a run, with what there is to say about them. -/
def settings (files : Files) (i : Invocation) : Settings × List ConsoleLine :=
  let (settings, notice) := Settings.loadOrDefault files i.configPath
  let notices := notice.toList.map fun text => (⟨true, text⟩ : ConsoleLine)
  let given := String.intercalate ", " i.overrides.given
  let overridden : List ConsoleLine :=
    if i.overrides.isEmpty then [] else [⟨false, s!"[config] CLI overrides applied: {given}"⟩]
  (settings.override i.overrides, notices ++ overridden)

/-- The lines that the log has gained. -/
def flush (a : App) : App × List ConsoleLine :=
  let (a, log) := a.takeLog
  (a, log.console "script")

/-- Starts an app. -/
def start (files : Files) (s : Settings) (firstMarker : Nat) : App × List ConsoleLine :=
  let (a, lines) := flush (App.start files s firstMarker)
  let loaded := s!"{a.groups.length} entities, {a.registry.size} scripts loaded from {s.scripts.root.text}"
  (a, lines ++ [⟨false, s!"[app] {loaded}"⟩])

/-- One step of an app. -/
def step (a : App) (dt : Float32) : App × List ConsoleLine :=
  let (a, report) := a.step dt
  let (a, lines) := flush a
  (a,
    lines ++ report.events.map (fun e => ⟨false, s!"[script] {e.render}"⟩) ++
      report.printed.map (fun line => ⟨false, s!"[behaviour] {line}"⟩))

/-- A number of steps, at the rate of a clock that is never late. -/
def steps (a : App) (clock : TickClock) : Nat → List ConsoleLine
  | 0 => []
  | n + 1 =>
    let clock := clock.waitNext clock.last
    let (a, lines) := step a clock.deltaSeconds
    lines ++ steps a clock n

/-- A whole run with a bounded number of ticks, over files that do not change. -/
def whole (files : Files) (i : Invocation) (firstMarker : Nat) : List ConsoleLine :=
  let (s, opening) := settings files i
  let (a, lines) := start files s firstMarker
  opening ++ lines ++ steps a (.startAt 0 (s.host.tickMs * 1000)) s.host.ticks

end Run

end HotReload
