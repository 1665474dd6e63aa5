import HotReload.Proofs.Script.Footing
import HotReload.Proofs.Script.Roster

/-! # Polls and notifications

    A poll is not one event.  It takes the signal, it reads the source, and it compiles
    what it has read; meanwhile sources are written, and watchers deliver what they have
    seen earlier.  Here each of these is a *move* of its own, and the moves come in any
    order.

    A notification can arrive at the worst moment and is not lost.  What carries the
    argument is that the signal is taken before the source is read: as long as the text
    that was read last is out of date, a notification is under way, the signal is raised,
    or a reload has been called which is still going to read. -/

namespace HotReload

variable {η : Type}

/-! ## Section 1 - moves -/

/-- How far a poll has come. -/
inductive Phase where
  | idle
  /-- A reload has been called, and has not read the source yet. -/
  | called
  /-- The source has been read. -/
  | holding (text : Except ScriptError String)

/-- The number of reloads under way. -/
def Phase.underWay : Phase → Nat
  | .idle => 0
  | .called | .holding _ => 1

namespace Script

/-- Whether a call has nothing to do with changes of the source. -/
def Call.isAside : Call → Bool
  | .update | .recompile | .requestReload => false
  | .attach _ | .detach _ | .detachAll | .reattach | .discard | .resume => true

end Script

/-- What can happen around a script whose owner polls it. -/
inductive Move (η : Type) where
  /-- The files change, and watchers owe a notification of it. -/
  | write (files : Files)
  /-- Notifications of so many changes arrive together. -/
  | notify (n : Nat)
  /-- Somebody else raises the signal. -/
  | raise
  /-- A poll begins: the signal is taken. -/
  | take
  /-- The owner calls a reload without any signal. -/
  | order
  /-- The reload under way reads the source. -/
  | read
  /-- It compiles what it has read, and gives the new type to the entities. -/
  | compile
  /-- The owner calls the script for another purpose. -/
  | call (c : Script.Call)
  /-- Whatever else works with the workspace goes on, and leaves the source as it is. -/
  | others (w : Workspace η)

/-- A script with the poll that may be under way, and a record of what has happened so far. -/
structure Polling (η : Type) where
  workspace : Workspace η
  script : Script
  phase : Phase := .idle
  /-- The text that was read last, if the source could be read. -/
  seen : Option String
  /-- The number of changes whose notification has not arrived. -/
  unnotified : Nat := 0
  /-- How often the signal has been raised since a poll took it. -/
  raises : Nat := 0
  /-- How many polls took a raised signal. -/
  answered : Nat := 0
  /-- How many reloads were called without a signal. -/
  ordered : Nat := 0
  /-- How many reloads are done. -/
  reloaded : Nat := 0

namespace Polling

/-- A script that has just been loaded. -/
def start (w : Workspace η) (s : Script) : Polling η := { workspace := w, script := s, seen := s.source }

/-- What the source reads at present. -/
def content (c : Polling η) : Option String := c.workspace.content c.script.path

/-- The signal is raised once more. -/
def raise (c : Polling η) : Polling η :=
  { c with script := c.script.requestReload, raises := c.raises + 1 }

variable [Host η]

/-- What a move leads to.  A move that is out of place does nothing. -/
def step (c : Polling η) : Move η → Polling η
  | .write files => { c with workspace := { c.workspace with files }, unnotified := c.unnotified + 1 }
  | .notify n => if n = 0 ∨ c.unnotified = 0 then c else { c.raise with unnotified := c.unnotified - n }
  | .raise => c.raise
  | .take =>
    match c.phase with
    | .idle =>
      match c.script.takeSignal with
      | (script, true) => { c with script, phase := .called, raises := 0, answered := c.answered + 1 }
      | (script, false) => { c with script }
    | _ => c
  | .order =>
    match c.phase with
    | .idle => { c with phase := .called, ordered := c.ordered + 1 }
    | _ => c
  | .read =>
    match c.phase with
    | .called =>
      let text := c.workspace.readSource c.script.path
      { c with phase := .holding text, seen := text.toOption }
    | _ => c
  | .compile =>
    match c.phase with
    | .holding text =>
      let (workspace, script, _) := c.script.recompileFrom c.workspace text
      { c with workspace, script, phase := .idle, reloaded := c.reloaded + 1 }
    | _ => c
  | .call called =>
    match c.phase with
    | .idle =>
      if called.isAside then
        let (workspace, script) := c.script.call c.workspace called
        { c with workspace, script }
      else c
    | _ => c
  | .others w => if w.content c.script.path = c.content then { c with workspace := w } else c

/-- Moves one after the other. -/
def run (c : Polling η) (moves : List (Move η)) : Polling η := moves.foldl step c

end Polling

/-! ## Section 2 - single moves -/

namespace Script

section takes
variable {s : Script}

theorem takeSignal_of_raised (hd : s.discarded = false) (hr : s.signal.raised = true) :
    s.takeSignal = (s.answered, true) := by
  simp [takeSignal, answered, hd, hr, Signal.take]

/-- Out of service, or with its signal down, a script is left as it is. -/
theorem takeSignal_of_idle (h : s.discarded = true ∨ s.signal.raised = false) :
    s.takeSignal = (s, false) := by
  rcases h with hd | hr
  · simp [takeSignal, hd]
  · -- lowering a signal that is not raised changes nothing
    have hsame : s.answered = s := by rw [answered, ← hr]
    by_cases hd : s.discarded = true
    · simp [takeSignal, hd]
    · have htake : s.takeSignal = (s.answered, s.signal.raised) := if_neg hd
      rw [htake, hsame, hr]

end takes

variable [Host η]

/-- A call for another purpose keeps the files, the code, the path and the signal. -/
theorem call_aside (w : Workspace η) (s : Script) {c : Call} (h : c.isAside = true) :
    (s.call w c).1.files = w.files ∧ (s.call w c).2.code = s.code ∧
      (s.call w c).2.path = s.path ∧ (s.call w c).2.signal = s.signal := by
  -- what works on the entities keeps the whole footing
  have hframe : ∀ {w' s'}, Frame w w' s s' →
      w'.files = w.files ∧ s'.code = s.code ∧ s'.path = s.path ∧ s'.signal = s.signal :=
    fun hf => ⟨hf.files, hf.code, path_of_footing hf.footing, signal_of_footing hf.footing⟩
  cases c with
  | attach e => exact hframe (attach_frame w s e)
  | detach e => exact hframe (detach_frame w s e)
  | detachAll => exact hframe (detachAll_frame w s)
  | reattach => exact hframe (reattach_frame w s)
  | discard => exact ⟨rfl, code_discard s, path_discard s, signal_discard s⟩
  | resume =>
    obtain ⟨hfiles, hcode, hpath, hsignal, -⟩ := resume_frame w s
    exact ⟨hfiles, hcode, hpath, hsignal⟩
  | update => cases h
  | recompile => cases h
  | requestReload => cases h

end Script

namespace Polling

section moves
variable [Host η] {c : Polling η}

@[simp] theorem run_nil (c : Polling η) : c.run [] = c := rfl

@[simp] theorem run_cons (c : Polling η) (m : Move η) (rest : List (Move η)) :
    c.run (m :: rest) = (c.step m).run rest :=
  rfl

/-- A poll of a raised signal calls a reload. -/
theorem step_take_of_raised (hp : c.phase = .idle) (hd : c.script.discarded = false)
    (hr : c.script.signal.raised = true) : c.step .take =
      { c with script := c.script.answered, phase := .called, raises := 0, answered := c.answered + 1 } := by
  simp only [step, hp, Script.takeSignal_of_raised hd hr]

/-- Any other poll does nothing. -/
theorem step_take_of_idle (hp : c.phase = .idle)
    (h : c.script.discarded = true ∨ c.script.signal.raised = false) : c.step .take = c := by
  have hsame : { c with phase := .idle } = c := by rw [← hp]
  simp only [step, hp, Script.takeSignal_of_idle h]
  exact hsame

/-- A poll takes the signal, or it does nothing. -/
theorem step_take_cases (c : Polling η) :
    c.step .take = c ∨ (c.phase = .idle ∧ c.script.discarded = false ∧ c.step .take =
      { c with script := c.script.answered, phase := .called, raises := 0, answered := c.answered + 1 }) := by
  cases hp : c.phase with
  | called => exact .inl (by simp only [step, hp])
  | holding text => exact .inl (by simp only [step, hp])
  | idle =>
    by_cases hidle : c.script.discarded = true ∨ c.script.signal.raised = false
    · exact .inl (step_take_of_idle hp hidle)
    · obtain ⟨hd, hr⟩ := by simpa using hidle
      exact .inr ⟨rfl, hd, step_take_of_raised hp hd hr⟩

/-- A notification that arrives raises the signal. -/
theorem step_notify_cases (c : Polling η) (n : Nat) :
    c.step (.notify n) = c ∨ c.step (.notify n) = { c.raise with unnotified := c.unnotified - n } := by
  by_cases h : n = 0 ∨ c.unnotified = 0
  · exact .inl (if_pos h)
  · exact .inr (if_neg h)

/-- A reload can be called between two polls. -/
theorem step_order_cases (c : Polling η) : c.step .order = c ∨
    (c.phase = .idle ∧ c.step .order = { c with phase := .called, ordered := c.ordered + 1 }) := by
  cases hp : c.phase with
  | idle => exact .inr ⟨rfl, by simp only [step, hp]⟩
  | called => exact .inl (by simp only [step, hp])
  | holding text => exact .inl (by simp only [step, hp])

/-- A reload that has been called reads the source. -/
theorem step_read_of_called (hp : c.phase = .called) : c.step .read =
    { c with phase := .holding (c.workspace.readSource c.script.path), seen := c.content } := by
  simp only [step, hp]
  rfl

theorem step_read_cases (c : Polling η) :
    c.step .read = c ∨ (c.phase = .called ∧ c.step .read =
      { c with phase := .holding (c.workspace.readSource c.script.path), seen := c.content }) := by
  cases hp : c.phase with
  | idle => exact .inl (by simp only [step, hp])
  | called => exact .inr ⟨rfl, step_read_of_called hp⟩
  | holding text => exact .inl (by simp only [step, hp])

/-- A reload that has read the source compiles what it has read. -/
theorem step_compile_of_holding {text : Except ScriptError String} (hp : c.phase = .holding text) :
    c.step .compile = { c with
      workspace := (c.script.recompileFrom c.workspace text).1,
      script := (c.script.recompileFrom c.workspace text).2.1,
      phase := .idle, reloaded := c.reloaded + 1 } := by
  simp only [step, hp]

theorem step_compile_cases (c : Polling η) : c.step .compile = c ∨
    ∃ text, c.phase = .holding text ∧ c.step .compile = { c with
      workspace := (c.script.recompileFrom c.workspace text).1,
      script := (c.script.recompileFrom c.workspace text).2.1,
      phase := .idle, reloaded := c.reloaded + 1 } := by
  cases hp : c.phase with
  | idle => exact .inl (by simp only [step, hp])
  | called => exact .inl (by simp only [step, hp])
  | holding text => exact .inr ⟨text, rfl, step_compile_of_holding hp⟩

/-- A call for another purpose works on the script between two polls. -/
theorem step_call_cases (c : Polling η) (called : Script.Call) :
    c.step (.call called) = c ∨ (called.isAside = true ∧ c.step (.call called) =
      { c with workspace := (c.script.call c.workspace called).1, script := (c.script.call c.workspace called).2 }) := by
  cases hp : c.phase with
  | called => exact .inl (by simp only [step, hp])
  | holding text => exact .inl (by simp only [step, hp])
  | idle =>
    cases hc : called.isAside with
    | false => exact .inl (by simp [step, hp, hc])
    | true => exact .inr ⟨rfl, by simp [step, hp, hc]⟩

/-- The others leave the source as it is. -/
theorem step_others_cases (c : Polling η) (w : Workspace η) : c.step (.others w) = c ∨
    (w.content c.script.path = c.content ∧ c.step (.others w) = { c with workspace := w }) := by
  by_cases hw : w.content c.script.path = c.content
  · exact .inr ⟨hw, if_pos hw⟩
  · exact .inl (if_neg hw)

end moves

/-! ## Section 3 - the invariant -/

/-- How the record of a script stands to the files and to the script. -/
structure Sound (c : Polling η) : Prop where
  raised : c.script.signal.raised = true ↔ 0 < c.raises
  balance : c.reloaded + c.phase.underWay = c.answered + c.ordered
  /-- What was read last is up to date, or there is something left that will have it read again. -/
  owed : c.seen = c.content ∨ c.phase = .called ∨ 0 < c.unnotified ∨ 0 < c.raises
  held : ∀ text, c.phase = .holding text → c.seen = text.toOption
  /-- Between two reloads the type is one of the text that was read last. -/
  typed : (∀ text, c.phase ≠ .holding text) → c.script.compiled.isSome = true →
    c.script.source = c.seen

namespace Sound
variable {c : Polling η}

theorem start {w w' : Workspace η} {identity : String} {p : Path} {options : ScriptOptions} {s : Script}
    (h : Script.load w identity p options = (w', .ok s)) : (Polling.start w' s).Sound := by
  obtain ⟨text, extracted, htext, -, hcode, hfooting, hfiles⟩ := Script.load_ok h
  have hsource : s.source = some text := congrArg Prod.snd hcode
  have hpath : s.path = p := congrArg Script.Footing.path hfooting
  have hsignal : s.signal = {} := congrArg Script.Footing.signal hfooting
  refine ⟨by simp [Polling.start, hsignal], rfl, .inl ?_, ?_, fun _ _ => rfl⟩
  · -- the load changes no file, so the source still reads as it did
    show s.source = w'.content s.path
    rw [hsource, hpath, w.content_congr hfiles, Workspace.content_eq_some.2 htext]
  · intro text hp
    cases hp

/-- What leaves the signal, the code and the source alone keeps the invariant. -/
theorem keep (h : c.Sound) {w : Workspace η} {s : Script} (hcode : s.code = c.script.code)
    (hsignal : s.signal = c.script.signal) (hcontent : w.content s.path = c.content) :
    Sound { c with workspace := w, script := s } where
  raised := by rw [← h.raised, hsignal]
  balance := h.balance
  owed := by
    have howed := h.owed
    rw [← hcontent] at howed
    exact howed
  held := h.held
  typed := by
    have hcompiled : s.compiled = c.script.compiled := congrArg Prod.fst hcode
    have hsource : s.source = c.script.source := congrArg Prod.snd hcode
    intro hp hc
    rw [hsource]
    exact h.typed hp (by rwa [hcompiled] at hc)

theorem raise (h : c.Sound) (n : Nat) : Sound { c.raise with unnotified := n } where
  raised := by simp [Polling.raise, Script.requestReload]
  balance := h.balance
  owed := .inr (.inr (.inr (Nat.succ_pos _)))
  held := h.held
  typed := h.typed

/-- A reload that is called will read the source, whatever it reads by then. -/
theorem called (h : c.Sound) {s : Script} {raises answered ordered : Nat} (hp : c.phase = .idle)
    (hcode : s.code = c.script.code) (hraised : s.signal.raised = true ↔ 0 < raises)
    (hsum : answered + ordered = c.answered + c.ordered + 1) :
    Sound { c with script := s, phase := .called, raises, answered, ordered } where
  raised := hraised
  balance := by
    have hbalance := h.balance
    rw [hp] at hbalance
    simp only [Phase.underWay] at hbalance ⊢
    omega
  owed := .inr (.inl rfl)
  held := by
    intro text hq
    cases hq
  typed := by
    have hcompiled : s.compiled = c.script.compiled := congrArg Prod.fst hcode
    have hsource : s.source = c.script.source := congrArg Prod.snd hcode
    intro _ hc
    rw [hsource]
    refine h.typed ?_ (by rwa [hcompiled] at hc)
    rw [hp]
    intro text hq
    cases hq

theorem read (h : c.Sound) (hp : c.phase = .called) :
    Sound { c with
      phase := .holding (c.workspace.readSource c.script.path), seen := c.content } where
  raised := h.raised
  balance := by
    have hbalance := h.balance
    rw [hp] at hbalance
    exact hbalance
  owed := .inl rfl
  held := by
    intro text hq
    cases hq
    rfl
  typed := fun hq => absurd rfl (hq _)

variable [Host η]

theorem compile (h : c.Sound) {text : Except ScriptError String} (hp : c.phase = .holding text) :
    Sound { c with
      workspace := (c.script.recompileFrom c.workspace text).1,
      script := (c.script.recompileFrom c.workspace text).2.1,
      phase := .idle, reloaded := c.reloaded + 1 } := by
  obtain ⟨hfiles, hfooting, hcode⟩ := Script.recompileFrom_fields c.workspace c.script text
  have hpath := Script.path_of_footing hfooting
  have hcompiled : _ = (Script.recoded c.workspace c.script text).1 := congrArg Prod.fst hcode
  have hsource : _ = (Script.recoded c.workspace c.script text).2 := congrArg Prod.snd hcode
  refine ⟨?_, ?_, ?_, ?_, ?_⟩
  · rw [← h.raised, Script.signal_of_footing hfooting]
  · have hbalance := h.balance
    rw [hp] at hbalance
    exact hbalance
  · -- a text is held, so if it is out of date something other than this reload is owed
    have hcontent : (c.script.recompileFrom c.workspace text).1.content
        (c.script.recompileFrom c.workspace text).2.1.path = c.content := by
      rw [hpath]
      exact c.workspace.content_congr hfiles _
    rcases h.owed with hseen | hcalled | hrest
    · exact .inl (hseen.trans hcontent.symm)
    · rw [hp] at hcalled
      cases hcalled
    · exact .inr (.inr hrest)
  · intro text hq
    cases hq
  · intro _ hc
    obtain ⟨source, rfl, hread⟩ := Script.source_of_recoded (by rw [← hcompiled]; exact hc)
    exact (hsource.trans hread).trans (h.held _ hp).symm

/-- Every move keeps the invariant. -/
theorem step (h : c.Sound) (m : Move η) : (c.step m).Sound := by
  cases m with
  | write files => exact ⟨h.raised, h.balance, .inr (.inr (.inl (Nat.succ_pos _))), h.held, h.typed⟩
  | notify n =>
    rcases step_notify_cases c n with heq | heq <;> rw [heq]
    · exact h
    · exact h.raise _
  | raise => exact h.raise c.unnotified
  | take =>
    rcases step_take_cases c with heq | ⟨hp, -, heq⟩ <;> rw [heq]
    · exact h
    · exact h.called hp rfl (by simp [Script.answered]) (Nat.succ_add _ _)
  | order =>
    rcases step_order_cases c with heq | ⟨hp, heq⟩ <;> rw [heq]
    · exact h
    · exact h.called hp rfl h.raised rfl
  | read =>
    rcases step_read_cases c with heq | ⟨hp, heq⟩ <;> rw [heq]
    · exact h
    · exact h.read hp
  | compile =>
    rcases step_compile_cases c with heq | ⟨text, hp, heq⟩ <;> rw [heq]
    · exact h
    · exact h.compile hp
  | call called =>
    rcases step_call_cases c called with heq | ⟨haside, heq⟩ <;> rw [heq]
    · exact h
    · obtain ⟨hfiles, hcode, hpath, hsignal⟩ := Script.call_aside c.workspace c.script haside
      refine h.keep hcode hsignal ?_
      rw [hpath]
      exact c.workspace.content_congr hfiles _
  | others w =>
    rcases step_others_cases c w with heq | ⟨hw, heq⟩ <;> rw [heq]
    · exact h
    · exact h.keep rfl rfl hw

theorem run (h : c.Sound) (moves : List (Move η)) : (c.run moves).Sound := by
  induction moves generalizing c with
  | nil => exact h
  | cons m rest ih => exact ih (h.step m)

end Sound

/-! ## Section 4 - raises between two polls -/

/-- From one record to a later one no raise is lost, unless a poll has answered it. -/
structure Keeps (c c' : Polling η) : Prop where
  answered : c.answered ≤ c'.answered
  raises : c'.answered = c.answered → c.raises ≤ c'.raises

namespace Keeps
variable {c c' c'' : Polling η}

theorem of_eq (ha : c'.answered = c.answered) (hr : c.raises ≤ c'.raises) : c.Keeps c' :=
  ⟨Nat.le_of_eq ha.symm, fun _ => hr⟩

theorem refl (c : Polling η) : c.Keeps c := of_eq rfl (Nat.le_refl _)

theorem trans (h : c.Keeps c') (h' : c'.Keeps c'') : c.Keeps c'' where
  answered := Nat.le_trans h.answered h'.answered
  raises := by
    intro hsame
    -- nothing has been answered on the way, neither before nor after
    have hnow : c'.answered = c.answered := Nat.le_antisymm (hsame ▸ h'.answered) h.answered
    exact Nat.le_trans (h.raises hnow) (h'.raises (hsame.trans hnow.symm))

end Keeps

section raises
variable [Host η] {c : Polling η}

theorem keeps_step (c : Polling η) (m : Move η) : c.Keeps (c.step m) := by
  cases m with
  | write files => exact .of_eq rfl (Nat.le_refl _)
  | notify n =>
    rcases step_notify_cases c n with heq | heq <;> rw [heq]
    · exact .refl c
    · exact .of_eq rfl (Nat.le_succ _)
  | raise => exact .of_eq rfl (Nat.le_succ _)
  | take =>
    rcases step_take_cases c with heq | ⟨-, -, heq⟩ <;> rw [heq]
    · exact .refl c
    · exact ⟨Nat.le_succ _, fun h => absurd h (Nat.succ_ne_self _)⟩
  | order =>
    rcases step_order_cases c with heq | ⟨-, heq⟩ <;> rw [heq] <;> exact .of_eq rfl (Nat.le_refl _)
  | read =>
    rcases step_read_cases c with heq | ⟨-, heq⟩ <;> rw [heq] <;> exact .of_eq rfl (Nat.le_refl _)
  | compile =>
    rcases step_compile_cases c with heq | ⟨text, -, heq⟩ <;> rw [heq] <;> exact .of_eq rfl (Nat.le_refl _)
  | call called =>
    rcases step_call_cases c called with heq | ⟨-, heq⟩ <;> rw [heq] <;> exact .of_eq rfl (Nat.le_refl _)
  | others w =>
    rcases step_others_cases c w with heq | ⟨-, heq⟩ <;> rw [heq] <;> exact .of_eq rfl (Nat.le_refl _)

theorem keeps_run (c : Polling η) (moves : List (Move η)) : c.Keeps (c.run moves) := by
  induction moves generalizing c with
  | nil => exact .refl c
  | cons m rest ih => exact (keeps_step c m).trans (ih (c.step m))

/-- A poll that nothing interrupts is an update. -/
theorem run_poll (hp : c.phase = .idle) :
    (c.run [.take, .read, .compile]).workspace = (c.script.update c.workspace).1 ∧
      (c.run [.take, .read, .compile]).script = (c.script.update c.workspace).2.1 := by
  simp only [run_cons, run_nil]
  rcases Script.update_cases c.workspace c.script with ⟨hd, hr, heq⟩ | ⟨hidle, heq⟩ <;> rw [heq]
  · rw [step_take_of_raised hp hd hr, step_read_of_called rfl, step_compile_of_holding rfl]
    exact ⟨rfl, rfl⟩
  · have hread : c.step .read = c := by simp only [step, hp]
    have hcompile : c.step .compile = c := by simp only [step, hp]
    rw [step_take_of_idle hp hidle, hread, hcompile]
    exact ⟨rfl, rfl⟩

end raises

/-! ## Section 5 - the main theorem -/

/-- What an owner who polls a script can rely on. -/
structure LosesNothing [Host η] (c : Polling η) : Prop where
  /-- The signal stands for everything that has been raised since a poll took it. -/
  raised : c.script.signal.raised = true ↔ 0 < c.raises
  /-- A poll takes all of that at once, and calls a reload. -/
  takes : c.phase = .idle → c.script.discarded = false → 0 < c.raises → c.step .take =
    { c with script := c.script.answered, phase := .called, raises := 0, answered := c.answered + 1 }
  /-- If there is nothing to take, or the script is out of service, a poll does nothing. -/
  rests : c.phase = .idle → c.script.discarded = true ∨ c.raises = 0 → c.step .take = c
  /-- Every poll that took the signal, and every order, comes to exactly one reload. -/
  balance : c.reloaded + c.phase.underWay = c.answered + c.ordered
  /-- Without anything in between, a poll is an update. -/
  polls : c.phase = .idle →
    (c.run [.take, .read, .compile]).workspace = (c.script.update c.workspace).1 ∧
      (c.run [.take, .read, .compile]).script = (c.script.update c.workspace).2.1
  /-- When all notifications have arrived and none waits for a poll, the text that was read last is
      what the source reads at present, and the type, if there is one, was compiled from it. -/
  current : c.phase = .idle → c.script.signal.raised = false → c.unnotified = 0 →
    c.seen = c.content ∧ (c.script.compiled.isSome = true → c.script.source = c.content)
  /-- Raises are kept until a poll answers them, also while the script is out of service. -/
  kept : ∀ more : List (Move η), (c.run more).answered = c.answered → c.raises ≤ (c.run more).raises
  /-- The first poll that finds the script in service again answers them. -/
  returns : 0 < c.raises → ∀ more : List (Move η), (c.run more).answered = c.answered →
    (c.run more).phase = .idle → (c.run more).script.discarded = false →
    ((c.run more).step .take).phase = .called ∧
      ((c.run more).step .take).answered = c.answered + 1

theorem Sound.losesNothing [Host η] {c : Polling η} (h : c.Sound) : c.LosesNothing where
  raised := h.raised
  takes := fun hp hd hr => step_take_of_raised hp hd (h.raised.2 hr)
  rests := by
    intro hp hidle
    refine step_take_of_idle hp (hidle.imp_right ?_)
    intro hnone
    simpa [hnone] using h.raised
  balance := h.balance
  polls := fun hp => run_poll hp
  current := by
    intro hp hr hn
    have hseen : c.seen = c.content := by
      rcases h.owed with hseen | hcalled | hwaits | hraises
      · exact hseen
      · rw [hp] at hcalled
        cases hcalled
      · exact absurd hn (Nat.pos_iff_ne_zero.1 hwaits)
      · rw [h.raised.2 hraises] at hr
        cases hr
    refine ⟨hseen, fun hc => ?_⟩
    rw [← hseen]
    refine h.typed ?_ hc
    rw [hp]
    intro text hq
    cases hq
  kept := fun more => (keeps_run c more).raises
  returns := by
    intro hr more hsame hp hd
    have hraises : 0 < (c.run more).raises := Nat.lt_of_lt_of_le hr ((keeps_run c more).raises hsame)
    rw [step_take_of_raised hp hd ((h.run more).raised.2 hraises)]
    exact ⟨rfl, by rw [← hsame]⟩

/-- Whatever happens around a script that has been loaded, and in whatever order, no notification is
    lost. -/
theorem run_losesNothing [Host η] {w w' : Workspace η} {identity : String} {p : Path}
    {options : ScriptOptions} {s : Script} (h : Script.load w identity p options = (w', .ok s))
    (moves : List (Move η)) : ((Polling.start w' s).run moves).LosesNothing :=
  ((Sound.start h).run moves).losesNothing

/-- A signal that is raised out of service, and taken after the return. -/
theorem losesNothing_after_return :
    ((Polling.start Script.spinLoaded.1 Script.spinScript).run
      [.call .discard, .raise, .take, .call .resume, .take]).LosesNothing ∧
    ((Polling.start Script.spinLoaded.1 Script.spinScript).run
      [.call .discard, .raise, .take, .call .resume, .take]).answered = 1 :=
  ⟨run_losesNothing Script.load_spin _, by decide +kernel⟩

end Polling

end HotReload
