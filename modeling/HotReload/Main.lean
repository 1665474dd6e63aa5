import HotReload.App.Run

/-! # The program

Reads the command line, the settings and the sources that the settings name, and runs the app. Between two ticks the
sources are read again, and what has changed of them is handed to the app.
-/

open HotReload

namespace HotReload.Program

/-- What stands at a path, if it is a file that can be read. -/
def contentAt (p : Path) : IO (Option ByteArray) := do
  try
    return some (← IO.FS.readBinFile p.text)
  catch _ =>
    return none

/-- Reads files again, and collects what a watcher would have seen of their changes. -/
def lookAgain (files : Files) : List Path → IO (Files × List Touch)
  | [] => return (files, [])
  | p :: rest => do
    let change := files.observe p (← contentAt p)
    let (files, touches) ← lookAgain change.files rest
    return (files, change.touches ++ touches)

/-- The paths of the sources that settings name. -/
def sources (s : Settings) : List Path :=
  let registry := Registry.ofSettings s.scripts
  s.entities.flatMap fun e => e.scripts.map registry.resolvePath

/-- Shows lines on the console, each on its channel. -/
def print (lines : List ConsoleLine) : IO Unit := do
  for line in lines do
    if line.trouble then IO.eprintln line.text else IO.println line.text

/-- The time in microseconds. -/
def now : IO Nat := return (← IO.monoNanosNow) / 1000

/-- Ticks until the number of ticks is reached, or without end if it is zero. -/
partial def loop (a : App) (clock : TickClock) (ticks : Nat) : IO Unit := do
  if ticks ≠ 0 ∧ ticks ≤ clock.ticks then return
  let before ← now
  IO.sleep ((clock.due before - before) / 1000).toUInt32
  let clock := clock.tick (max (← now) (clock.due before))
  let (files, touches) ← lookAgain a.workspace.files (sources a.settings)
  let (a, lines) := Run.step (a.setFiles files touches) clock.deltaSeconds
  print lines
  loop a clock ticks

/-- Runs the app as a command line says. -/
def run (i : Invocation) : IO Unit := do
  let home := (← IO.currentDir).toString
  let place := ((Path.mk home).components).drop 1
  let empty := (({ home := place } : Files).makeFolder ⟨home⟩).files
  let (files, _) ← lookAgain empty [i.configPath]
  let (settings, opening) := Run.settings files i
  print opening
  let (files, _) ← lookAgain files (sources settings)
  let (a, lines) := Run.start files settings 1
  print lines
  loop a (.startAt (← now) (settings.host.tickMs * 1000)) settings.host.ticks

end HotReload.Program

/-- Runs the program. A command line that makes no sense is reported, with the exit code two. -/
def main (arguments : List String) : IO UInt32 := do
  match Invocation.parse ("" :: arguments) with
  | .error fault =>
    IO.eprintln s!"[cli] {fault.message}"
    return 2
  | .ok i =>
    Program.run i
    return 0
