import HotReload.Proofs.Script.Footing
import HotReload.Proofs.Script.Roster

/-! # Loads and edits

    A load reads the source, compiles what it has read, makes a script with a signal of
    its own, and then starts to watch the source.  These are four steps, and the source
    may be written between any two of them.

    From its start the watch lets nothing through: every write raises the signal sooner
    or later.  But it starts last.  What is written after the source was read and before
    the watch starts is neither compiled nor reported, so a load is safe exactly if at
    the start of the watch the source still reads as it was read, or is written once more
    after that. -/

namespace HotReload

variable {η : Type}

/-! ## Section 1 - the steps of a load -/

namespace Script

/-- Makes a script from the type that was found in its source. -/
def create (w : Workspace η) (identity : String) (p : Path) (options : ScriptOptions) (source : String)
    (extracted : Extracted) : Workspace η × Script :=
  let type := extracted.behaviour
  let w := w.say (.info s!"compiled '{identity}' as {type.name} {inMilliseconds w.lapse}")
  let script : Script := { identity, path := p, options, compiled := some type, source := some source }
  (w, script.push (.compiled identity type.name script.generation w.lapse))

/-- A source is compiled first, and then the script is made. -/
theorem ofSource_eq (w : Workspace η) (identity : String) (p : Path) (options : ScriptOptions)
    (source : String) : ofSource w identity p options source =
      match w.extract source with
      | (w, .error error) => (w, .error error)
      | (w, .ok extracted) =>
        ((create w identity p options source extracted).1,
          .ok (create w identity p options source extracted).2) :=
  rfl

end Script

/-- How far a load has come. -/
inductive LoadPhase where
  | begun
  /-- The source has been read. -/
  | holding (source : String)
  /-- It has been compiled. -/
  | compiled (source : String) (extracted : Extracted)
  /-- The script exists, with its signal, and is not watched yet. -/
  | created (s : Script)
  | loaded (s : Script)
  | failed (error : ScriptError)

/-- What can happen while a script is loaded. -/
inductive LoadMove where
  /-- The load takes its next step. -/
  | advance
  /-- The files change. -/
  | write (files : Files)
  /-- The watcher reports so many changes at once. -/
  | deliver (n : Nat)

/-- A load under way, and a record of what has happened since the watch started. -/
structure Loading (η : Type) where
  workspace : Workspace η
  identity : String
  path : Path
  options : ScriptOptions
  phase : LoadPhase := .begun
  /-- The number of changes that the watcher has seen and not reported. -/
  undelivered : Nat := 0
  /-- What the source read when the watch started. -/
  entry : Option String := none
  /-- The number of changes since the watch started. -/
  since : Nat := 0

namespace Loading

/-- A load at its beginning. -/
def start (w : Workspace η) (identity : String) (p : Path) (options : ScriptOptions) : Loading η :=
  { workspace := w, identity, path := p, options }

/-- What the source reads at present. -/
def content (l : Loading η) : Option String := l.workspace.content l.path

/-- Whether the source is watched. -/
def isWatched (l : Loading η) : Bool :=
  match l.phase with
  | .loaded s => s.isWatching
  | _ => false

/-- The next step of the load itself. -/
def advance (l : Loading η) : Loading η :=
  match l.phase with
  | .begun =>
    match l.workspace.readSource l.path with
    | .error error => { l with phase := .failed error }
    | .ok source => { l with phase := .holding source }
  | .holding source =>
    match l.workspace.extract source with
    | (workspace, .error error) => { l with workspace, phase := .failed error }
    | (workspace, .ok extracted) => { l with workspace, phase := .compiled source extracted }
  | .compiled source extracted =>
    let (workspace, s) := Script.create l.workspace l.identity l.path l.options source extracted
    { l with workspace, phase := .created s }
  | .created s =>
    let (workspace, s) := s.startWatch l.workspace
    { l with workspace, phase := .loaded s, entry := l.content }
  | .loaded _ | .failed _ => l

/-- The files change.  A watcher will report it. -/
def write (l : Loading η) (files : Files) : Loading η :=
  let l' := { l with workspace := { l.workspace with files } }
  if l.isWatched then { l' with undelivered := l.undelivered + 1, since := l.since + 1 } else l'

/-- The report of a change raises the signal. -/
def deliver (l : Loading η) (n : Nat) : Loading η :=
  match l.phase with
  | .loaded s =>
    if n = 0 ∨ l.undelivered = 0 then l
    else { l with phase := .loaded s.requestReload, undelivered := l.undelivered - n }
  | _ => l

/-- What a move leads to. -/
def step (l : Loading η) : LoadMove → Loading η
  | .advance => l.advance
  | .write files => l.write files
  | .deliver n => l.deliver n

/-- Moves one after the other. -/
def run (l : Loading η) (moves : List LoadMove) : Loading η := moves.foldl step l

@[simp] theorem run_nil (l : Loading η) : l.run [] = l := rfl

@[simp] theorem run_cons (l : Loading η) (m : LoadMove) (rest : List LoadMove) :
    l.run (m :: rest) = (l.step m).run rest :=
  rfl

theorem run_append (l : Loading η) (before after : List LoadMove) :
    l.run (before ++ after) = (l.run before).run after :=
  List.foldl_append

section steps
variable {l : Loading η}

theorem advance_begun {source : String} (hp : l.phase = .begun)
    (hread : l.workspace.readSource l.path = .ok source) :
    l.advance = { l with phase := .holding source } := by
  simp only [advance, hp, hread]

theorem advance_holding {w : Workspace η} {source : String} {extracted : Extracted}
    (hp : l.phase = .holding source) (hx : l.workspace.extract source = (w, .ok extracted)) :
    l.advance = { l with workspace := w, phase := .compiled source extracted } := by
  simp only [advance, hp, hx]

theorem advance_compiled {source : String} {extracted : Extracted}
    (hp : l.phase = .compiled source extracted) : l.advance = { l with
      workspace := (Script.create l.workspace l.identity l.path l.options source extracted).1,
      phase := .created (Script.create l.workspace l.identity l.path l.options source extracted).2 } := by
  simp only [advance, hp]

theorem advance_created {s : Script} (hp : l.phase = .created s) : l.advance = { l with
    workspace := (s.startWatch l.workspace).1, phase := .loaded (s.startWatch l.workspace).2,
    entry := l.content } := by
  simp only [advance, hp]

theorem write_of_unwatched (hw : l.isWatched = false) (files : Files) :
    l.write files = { l with workspace := { l.workspace with files } } := by
  simp only [write, hw, Bool.false_eq_true, if_false]

end steps

/-- Four steps without anything in between are a load. -/
theorem run_alone (w : Workspace η) (identity : String) (p : Path) (options : ScriptOptions) :
    let l := (start w identity p options).run [.advance, .advance, .advance, .advance]
    (l.workspace, l.phase) =
      match Script.load w identity p options with
      | (w', .ok s) => (w', .loaded s)
      | (w', .error error) => (w', .failed error) := by
  simp only [run_cons, run_nil, step, start]
  unfold Script.load
  cases hread : w.readSource p with
  | error error => simp only [advance, hread]
  | ok source =>
    dsimp only
    rw [Script.ofSource_eq]
    cases hx : w.extract source with
    | mk w₁ result => cases result <;> simp only [advance, hread, hx]

/-! ## Section 2 - the invariant -/

/-- A script that has a type from the text that its source read at one time. -/
structure Made (p : Path) (s : Script) : Prop where
  path : s.path = p
  inService : s.discarded = false
  typed : s.compiled.isSome = true
  told : s.source.isSome = true

/-- Such a script is up to date as long as its source reads what the type was compiled from. -/
theorem Made.upToDate_iff {p : Path} {s : Script} (h : Made p s) (w : Workspace η) :
    s.UpToDate w ↔ s.source = w.content p := by
  obtain ⟨type, hc⟩ := Option.isSome_iff_exists.1 h.typed
  obtain ⟨source, hs⟩ := Option.isSome_iff_exists.1 h.told
  unfold Script.UpToDate
  rw [hc, hs, h.path]
  constructor
  · rintro ⟨text, hread, htold⟩
    rw [htold, Workspace.content_eq_some.2 hread]
  · intro hsame
    exact ⟨source, Workspace.content_eq_some.1 hsame.symm, rfl⟩

/-- What the record of a load says about the signal and about the source. -/
structure Watched (l : Loading η) (s : Script) : Prop where
  /-- Every change since the start of the watch has raised the signal, or is going to. -/
  owed : (s.signal.raised = true ∨ 0 < l.undelivered) ↔ 0 < l.since
  /-- Before the first of them the source reads as it did at the start. -/
  steady : l.since = 0 → l.content = l.entry

/-- How the record of a load stands to its phase. -/
def Sound (l : Loading η) : Prop :=
  match l.phase with
  | .created s => Made l.path s ∧ s.signal.raised = false ∧ l.undelivered = 0 ∧ l.since = 0
  | .loaded s => Made l.path s ∧ (s.isWatching = true → l.Watched s)
  | _ => l.undelivered = 0 ∧ l.since = 0

namespace Sound
variable {l : Loading η}

theorem advance (h : l.Sound) : l.advance.Sound := by
  unfold Sound at h
  unfold Loading.advance
  cases hp : l.phase with
  | begun =>
    rw [hp] at h
    dsimp only
    split <;> exact h
  | holding source =>
    rw [hp] at h
    dsimp only
    split <;> exact h
  | compiled source extracted =>
    rw [hp] at h
    exact ⟨⟨rfl, rfl, rfl, rfl⟩, rfl, h⟩
  | created s =>
    rw [hp] at h
    obtain ⟨hmade, hdown, hnone, hsince⟩ := h
    obtain ⟨hfiles, -, hcode, hfooting⟩ := Script.startWatch_fields l.workspace s
    have hsignal : (s.startWatch l.workspace).2.signal = s.signal :=
      congrArg Script.Footing.signal hfooting
    refine ⟨⟨?_, ?_, ?_, ?_⟩, fun _ => ⟨?_, fun _ => ?_⟩⟩
    · exact (congrArg Script.Footing.path hfooting).trans hmade.path
    · exact (congrArg Script.Footing.discarded hfooting).trans hmade.inService
    · have hcompiled : (s.startWatch l.workspace).2.compiled = s.compiled := congrArg Prod.fst hcode
      rw [hcompiled]
      exact hmade.typed
    · have hsource : (s.startWatch l.workspace).2.source = s.source := congrArg Prod.snd hcode
      rw [hsource]
      exact hmade.told
    · -- the signal is new, and nothing has been seen yet
      simp [hsignal, hdown, hnone, hsince]
    · exact Workspace.content_congr hfiles l.path
  | loaded s =>
    rw [hp] at h
    simpa only [Sound, hp] using h
  | failed error =>
    rw [hp] at h
    simpa only [Sound, hp] using h

theorem write (h : l.Sound) (files : Files) : (l.write files).Sound := by
  unfold Sound at h ⊢
  unfold Loading.write isWatched
  cases hp : l.phase with
  | loaded s =>
    rw [hp] at h
    obtain ⟨hmade, hwatched⟩ := h
    cases hw : s.isWatching with
    | false => simpa [hp, hw] using hmade
    | true =>
      -- the change is noted down at the same time as it is seen
      have hlater : 0 < l.undelivered + 1 ∧ 0 < l.since + 1 := ⟨Nat.succ_pos _, Nat.succ_pos _⟩
      simp only [hw, if_true]
      exact ⟨hmade, fun _ => ⟨⟨fun _ => hlater.2, fun _ => .inr hlater.1⟩,
        fun hnone => absurd hnone (Nat.succ_ne_zero _)⟩⟩
  | begun => simpa [hp] using h
  | holding source => simpa [hp] using h
  | compiled source extracted => simpa [hp] using h
  | created s => simpa [hp] using h
  | failed error => simpa [hp] using h

theorem deliver (h : l.Sound) (n : Nat) : (l.deliver n).Sound := by
  unfold Loading.deliver
  cases hp : l.phase with
  | loaded s =>
    by_cases hidle : n = 0 ∨ l.undelivered = 0
    · simpa only [if_pos hidle] using h
    · have hpos : 0 < l.undelivered := Nat.pos_of_ne_zero fun h0 => hidle (.inr h0)
      simp only [if_neg hidle]
      unfold Sound at h
      rw [hp] at h
      obtain ⟨hmade, hwatched⟩ := h
      refine ⟨⟨hmade.path, hmade.inService, hmade.typed, hmade.told⟩, fun hw => ?_⟩
      -- there was a change to report, so the signal that is raised now was owed
      have hsince : 0 < l.since := (hwatched hw).owed.1 (.inr hpos)
      exact ⟨⟨fun _ => hsince, fun _ => .inl rfl⟩, (hwatched hw).steady⟩
  | begun => exact h
  | holding source => exact h
  | compiled source extracted => exact h
  | created s => exact h
  | failed error => exact h

/-- Every move keeps the invariant. -/
theorem step (h : l.Sound) (m : LoadMove) : (l.step m).Sound := by
  cases m with
  | advance => exact h.advance
  | write files => exact h.write files
  | deliver n => exact h.deliver n

theorem run (h : l.Sound) (moves : List LoadMove) : (l.run moves).Sound := by
  induction moves generalizing l with
  | nil => exact h
  | cons m rest ih => exact ih (h.step m)

end Sound

/-! ## Section 3 - the main theorem -/

theorem start_sound (w : Workspace η) (identity : String) (p : Path) (options : ScriptOptions) :
    (start w identity p options).Sound :=
  ⟨rfl, rfl⟩

/-- When a load is done, the source is watched and everything has been reported, the script has the
    present text of its source or a raised signal exactly if the source read the same at the start
    of the watch as it was read by the load, or has changed since; and exactly then the first update
    leaves the script up to date. -/
theorem loaded_iff_safe [Host η] (w : Workspace η) (identity : String) (p : Path) (options : ScriptOptions)
    (moves : List LoadMove) {s : Script}
    (hloaded : ((start w identity p options).run moves).phase = .loaded s) (hwatch : s.isWatching = true)
    (hnone : ((start w identity p options).run moves).undelivered = 0) :
    let l := (start w identity p options).run moves
    ((s.source = l.content ∨ s.signal.raised = true) ↔ (s.source = l.entry ∨ 0 < l.since)) ∧
      ((s.update l.workspace).2.1.UpToDate l.workspace ↔ (s.source = l.entry ∨ 0 < l.since)) := by
  have hsound := (start_sound w identity p options).run moves
  generalize (start w identity p options).run moves = l at hloaded hnone hsound
  unfold Sound at hsound
  rw [hloaded] at hsound
  obtain ⟨hmade, hwatched⟩ := hsound
  have howed : s.signal.raised = true ↔ 0 < l.since := by
    rw [← (hwatched hwatch).owed, hnone]
    simp
  have hsafe : (s.source = l.content ∨ s.signal.raised = true) ↔ (s.source = l.entry ∨ 0 < l.since) := by
    rw [howed]
    rcases Nat.eq_zero_or_pos l.since with hzero | hpos
    · rw [(hwatched hwatch).steady hzero]
    · exact ⟨fun _ => .inr hpos, fun _ => .inr hpos⟩
  refine ⟨hsafe, ?_⟩
  rw [← hsafe]
  cases hr : s.signal.raised with
  | true =>
    have hupdated := Script.upToDate_update (w := l.workspace) hmade.inService hr
    simp [hupdated]
  | false =>
    -- an update that finds the signal down does nothing
    rcases Script.update_cases l.workspace s with ⟨-, hup, -⟩ | ⟨-, heq⟩
    · rw [hr] at hup
      cases hup
    · rw [heq]
      simp only [Bool.false_eq_true, or_false]
      exact hmade.upToDate_iff l.workspace

/-! ### A write in between -/

/-- A write after the source was read, and before the watch starts, leaves no trace in the script. -/
theorem run_of_late_write {w w₁ : Workspace η} (identity : String) {p : Path} (options : ScriptOptions)
    {source : String} {extracted : Extracted} (files : Files) (hread : w.readSource p = .ok source)
    (hx : Workspace.extract { w with files } source = (w₁, .ok extracted)) :
    let made := Script.create w₁ identity p options source extracted
    (start w identity p options).run [.advance, .write files, .advance, .advance, .advance] =
      { start (made.2.startWatch made.1).1 identity p options with
        phase := .loaded (made.2.startWatch made.1).2, entry := made.1.content p } := by
  let read : Loading η := { start w identity p options with phase := .holding source }
  let written : Loading η := { read with workspace := { w with files } }
  let compiled : Loading η := { read with workspace := w₁, phase := .compiled source extracted }
  have hfirst : (start w identity p options).advance = read := advance_begun rfl hread
  have hwrite : read.write files = written := write_of_unwatched rfl files
  have hcompile : written.advance = compiled := advance_holding rfl hx
  simp only [run_cons, run_nil, step]
  rw [hfirst, hwrite, hcompile, advance_compiled (l := compiled) rfl]
  exact advance_created rfl

/-- The files with some content of the source. -/
def spinFiles (content : String) : Files := { entries := [(["spin"], .file content.toUTF8)] }

theorem normalize_spin (content : String) : (spinFiles content).normalize ⟨"/spin"⟩ = ⟨"/spin"⟩ := by
  have hat : (spinFiles content).resolve ⟨"/spin"⟩ = .ok ["spin"] :=
    Files.resolve_file (by decide +kernel) Script.isName_spin (by decide +kernel) rfl
  rw [Files.normalize_of_resolved (by decide +kernel) hat]
  rfl

theorem watch_spin (content : String) :
    Watch.start (spinFiles content) ⟨"/spin"⟩ = .ok ⟨⟨"/spin"⟩, ⟨"/"⟩, 0⟩ := by
  have hroot : (spinFiles content).resolve ⟨"/"⟩ = .ok [] := Files.resolve_root _
  have hparent : Path.parent? ⟨"/spin"⟩ = some ⟨"/"⟩ := by decide +kernel
  unfold Watch.start
  simp only [normalize_spin, hparent, hroot]
  rfl

/-- An edited source. -/
def topSource : String := "class Top {}"

/-- The source is edited after it was read, and before the watch starts. -/
def lateEdit : List LoadMove := [.advance, .write (spinFiles topSource), .advance, .advance, .advance]

/-- What is left of a load with such an edit: a script of the old source, a watch, and a signal that
    is down. -/
theorem run_lateEdit : ∃ w s,
    (start Script.spinWorkspace "spin" ⟨"/spin"⟩ {}).run lateEdit =
      { start w "spin" ⟨"/spin"⟩ {} with phase := .loaded s, entry := some topSource } ∧
    w.content ⟨"/spin"⟩ = some topSource ∧ s.isWatching = true ∧
    s.source = some Script.spinSource ∧ s.signal.raised = false := by
  let w : Workspace Stage := { Script.spinWorkspace with files := spinFiles topSource }
  let extracted := (w.extract Script.spinSource).2.toOption.getD default
  let made := Script.create (w.extract Script.spinSource).1 "spin" ⟨"/spin"⟩ {} Script.spinSource extracted
  have hread : Script.spinWorkspace.readSource ⟨"/spin"⟩ = .ok Script.spinSource := by
    rw [Workspace.readSource, Script.readText_spin rfl]
  have hx : w.extract Script.spinSource = ((w.extract Script.spinSource).1, .ok extracted) :=
    Prod.ext rfl (eq_ok_of_isOk (by decide +kernel))
  have hwatch : made.2.startWatch made.1 =
      (made.1, { made.2 with watch := some ⟨⟨"/spin"⟩, ⟨"/"⟩, 0⟩ }) := by
    have hstart : Watch.start made.1.files made.2.path = .ok ⟨⟨"/spin"⟩, ⟨"/"⟩, 0⟩ := watch_spin topSource
    simp only [Script.startWatch, hstart]
    rfl
  have htop : made.1.content ⟨"/spin"⟩ = some topSource := by
    have hfiles : made.1.files = spinFiles topSource := rfl
    rw [Workspace.content_eq_some, Workspace.readSource, hfiles,
      Script.readText_spin rfl]
  have hrun := run_of_late_write "spin" {} (spinFiles topSource) hread hx
  refine ⟨(made.2.startWatch made.1).1, (made.2.startWatch made.1).2, ?_, ?_⟩
  · rw [← htop]
    exact hrun
  · rw [hwatch]
    exact ⟨htop, rfl, rfl, rfl⟩

/-- So the load has left a script that is neither up to date nor asked to reload. -/
theorem load_misses_edit : ∃ s,
    ((start Script.spinWorkspace "spin" ⟨"/spin"⟩ {}).run lateEdit).phase = .loaded s ∧
    s.isWatching = true ∧
    ((start Script.spinWorkspace "spin" ⟨"/spin"⟩ {}).run lateEdit).undelivered = 0 ∧
    ¬ (s.source = ((start Script.spinWorkspace "spin" ⟨"/spin"⟩ {}).run lateEdit).content ∨
      s.signal.raised = true) := by
  obtain ⟨w, s, hrun, hcontent, hwatch, hsource, hdown⟩ := run_lateEdit
  have htop : Script.spinSource ≠ topSource := by decide +kernel
  rw [hrun]
  refine ⟨s, rfl, hwatch, rfl, ?_⟩
  rintro (hsame | hup)
  · rw [hsource] at hsame
    exact htop (Option.some.inj (hsame.trans hcontent))
  · rw [hdown] at hup
    cases hup

/-- The source is edited once more, and the watcher reports it. -/
def nextEdit : List LoadMove := lateEdit ++ [.write (spinFiles "class Tip {}"), .deliver 1]

/-- The next edit makes up for the one that was missed. -/
theorem safe_after_next_edit : ∃ s,
    ((start Script.spinWorkspace "spin" ⟨"/spin"⟩ {}).run nextEdit).phase = .loaded s ∧
    (s.update ((start Script.spinWorkspace "spin" ⟨"/spin"⟩ {}).run nextEdit).workspace).2.1.UpToDate
      ((start Script.spinWorkspace "spin" ⟨"/spin"⟩ {}).run nextEdit).workspace := by
  obtain ⟨w, s, hrun, -, hwatch, -, -⟩ := run_lateEdit
  let w' : Workspace Stage := { w with files := spinFiles "class Tip {}" }
  have hlater : (start Script.spinWorkspace "spin" ⟨"/spin"⟩ {}).run nextEdit =
      { start w' "spin" ⟨"/spin"⟩ {} with
        phase := .loaded s.requestReload, entry := some topSource, since := 1 } := by
    rw [nextEdit, run_append, hrun]
    simp only [run_cons, run_nil, step, write, isWatched, hwatch, if_true, deliver]
    rfl
  refine ⟨s.requestReload, by rw [hlater], ?_⟩
  refine (loaded_iff_safe (s := s.requestReload) Script.spinWorkspace "spin" ⟨"/spin"⟩ {} _
    (by rw [hlater]) hwatch (by rw [hlater]; rfl)).2.2 (.inr ?_)
  rw [hlater]
  exact Nat.one_pos

end Loading

end HotReload
