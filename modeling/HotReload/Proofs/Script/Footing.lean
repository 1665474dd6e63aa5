import HotReload.Proofs.Script.Calls

/-! # What a script stands on

    Besides its entities a script has a *footing*, which is where its source is, how it
    is kept up to date and whether it is in service, and a *code*, which is its type
    together with the text that the type was compiled from.

    The operations on entities touch neither.  A reload leaves the footing alone and
    gives the script a new code, which the text that has been read decides.  No operation
    of a script changes a file. -/

namespace HotReload

variable {η : Type}

/-! ## Section 1 - workspaces -/

namespace Workspace

@[simp] theorem files_say (w : Workspace η) (line : LogLine) : (w.say line).files = w.files := rfl

@[simp] theorem files_extract (w : Workspace η) (source : String) :
    (w.extract source).1.files = w.files :=
  rfl

@[simp] theorem files_addBehaviour [Host η] (w : Workspace η) (e : Entity) (type : BehaviourType) :
    (w.addBehaviour e type).1.files = w.files :=
  rfl

@[simp] theorem files_destroyBehaviour [Host η] (w : Workspace η) (r : InstanceRef) :
    (w.destroyBehaviour r).1.files = w.files :=
  rfl

/-- What a source reads depends on the files alone. -/
theorem readSource_congr {η' : Type} {w : Workspace η} {w' : Workspace η'} (h : w'.files = w.files) (p : Path) :
    w'.readSource p = w.readSource p := by
  unfold readSource
  rw [h]

/-- What a source reads, if it can be read at all. -/
def content (w : Workspace η) (p : Path) : Option String := (w.readSource p).toOption

/-- So does its content. -/
theorem content_congr {w w' : Workspace η} (h : w'.files = w.files) (p : Path) :
    w'.content p = w.content p :=
  congrArg Except.toOption (readSource_congr h p)

theorem content_eq_some {w : Workspace η} {p : Path} {text : String} :
    w.content p = some text ↔ w.readSource p = .ok text := by
  unfold content
  cases w.readSource p <;> simp [Except.toOption]

/-- What a source compiles to depends on the compiler alone. -/
theorem extract_congr {w w' : Workspace η} (h : w'.context = w.context) (source : String) :
    (w'.extract source).2 = (w.extract source).2 := by
  unfold extract
  rw [h]

end Workspace

namespace Script

/-! ## Section 2 - footing and code -/

/-- What has nothing to do with the entities of a script, with its type and with its events. -/
structure Footing where
  identity : String
  path : Path
  options : ScriptOptions
  signal : Signal
  watch : Option Watch
  discarded : Bool
  deriving DecidableEq

/-- The footing of a script. -/
def footing (s : Script) : Footing :=
  ⟨s.identity, s.path, s.options, s.signal, s.watch, s.discarded⟩

/-- The type of a script, and the text that it was compiled from. -/
def code (s : Script) : Option BehaviourType × Option String := (s.compiled, s.source)

@[simp] theorem footing_push (s : Script) (e : Event) : (s.push e).footing = s.footing := rfl

@[simp] theorem code_push (s : Script) (e : Event) : (s.push e).code = s.code := rfl

@[simp] theorem footing_link (s : Script) (e : Entity) (ref : InstanceRef) :
    (s.link e ref).footing = s.footing :=
  rfl

@[simp] theorem code_link (s : Script) (e : Entity) (ref : InstanceRef) :
    (s.link e ref).code = s.code :=
  rfl

theorem path_of_footing {s s' : Script} (h : s'.footing = s.footing) : s'.path = s.path :=
  congrArg Footing.path h

theorem signal_of_footing {s s' : Script} (h : s'.footing = s.footing) : s'.signal = s.signal :=
  congrArg Footing.signal h

theorem discarded_of_footing {s s' : Script} (h : s'.footing = s.footing) :
    s'.discarded = s.discarded :=
  congrArg Footing.discarded h

/-- An operation that works on the entities of a script and leaves all else as it was. -/
structure Frame (w w' : Workspace η) (s s' : Script) : Prop where
  files : w'.files = w.files
  footing : s'.footing = s.footing
  code : s'.code = s.code

namespace Frame
variable {w w' w'' : Workspace η} {s s' s'' : Script}

theorem refl (w : Workspace η) (s : Script) : Frame w w s s := ⟨rfl, rfl, rfl⟩

theorem trans (h : Frame w w' s s') (h' : Frame w' w'' s' s'') : Frame w w'' s s'' where
  files := h'.files.trans h.files
  footing := h'.footing.trans h.footing
  code := h'.code.trans h.code

end Frame

/-! ## Section 3 - entities -/

section entities
variable [Host η]

theorem files_destroyInstance (w : Workspace η) (s : Script) (a : Attachment) :
    (destroyInstance w s a).files = w.files := by
  unfold destroyInstance
  have hfiles := w.files_destroyBehaviour a.ref
  split <;> next heq => rw [heq] at hfiles; exact hfiles

theorem context_destroyInstance (w : Workspace η) (s : Script) (a : Attachment) :
    (destroyInstance w s a).context = w.context := by
  unfold destroyInstance
  have hcontext := w.context_destroyBehaviour a.ref
  split <;> next heq => rw [heq] at hcontext; exact hcontext

theorem attach_frame (w : Workspace η) (s : Script) (e : Entity) :
    Frame w (attach w s e).1 s (attach w s e).2.1 := by
  rcases attach_cases w s e with ⟨-, heq⟩ | ⟨-, -, heq⟩ | ⟨-, type, ref, -, -, heq⟩ |
    ⟨-, type, error, line, -, -, heq⟩ <;> rw [heq]
  · exact .refl w s
  · -- the entity is written down, if it is not already
    by_cases hmem : e ∈ s.suspended
    · simpa [hmem] using Frame.refl w s
    · simp only [hmem, if_false]
      exact ⟨rfl, rfl, rfl⟩
  · exact ⟨rfl, rfl, rfl⟩
  · exact ⟨rfl, rfl, rfl⟩

theorem attachEach_frame (w : Workspace η) (s : Script) (es : List Entity) :
    Frame w (attachEach w s es).1 s (attachEach w s es).2.1 := by
  induction es generalizing w s with
  | nil => exact .refl w s
  | cons e es ih => exact (attach_frame w s e).trans (ih _ _)

theorem detach_frame (w : Workspace η) (s : Script) (e : Entity) :
    Frame w (detach w s e).1 s (detach w s e).2.1 := by
  rcases detach_cases w s e with ⟨-, heq⟩ | ⟨front, a, back, -, -, -, heq⟩ <;> rw [heq]
  · exact ⟨rfl, rfl, rfl⟩
  · exact ⟨files_destroyInstance w _ a, rfl, rfl⟩

theorem detachEach_frame (w : Workspace η) (s : Script) (es : List Entity) :
    Frame w (detachEach w s es).1 s (detachEach w s es).2 := by
  induction es generalizing w s with
  | nil => exact .refl w s
  | cons e es ih => exact (detach_frame w s e).trans (ih _ _)

theorem detachAll_frame (w : Workspace η) (s : Script) :
    Frame w (detachAll w s).1 s (detachAll w s).2.1 := by
  have hforget : Frame w w s { s with suspended := [] } := ⟨rfl, rfl, rfl⟩
  exact hforget.trans (detachEach_frame w _ s.attached)

theorem reattach_frame (w : Workspace η) (s : Script) :
    Frame w (reattach w s).1 s (reattach w s).2.1 := by
  unfold reattach
  split
  · exact .refl w s
  · have hforget : Frame w w s { s with suspended := [] } := ⟨rfl, rfl, rfl⟩
    exact hforget.trans (attachEach_frame w _ s.suspended)

end entities

/-! ## Section 4 - service -/

theorem code_discard (s : Script) : s.discard.code = s.code := by
  unfold discard
  split <;> rfl

@[simp] theorem discarded_discard (s : Script) : s.discard.discarded = true := by
  unfold discard
  split
  · assumption
  · rfl

theorem path_discard (s : Script) : s.discard.path = s.path := by
  unfold discard
  split <;> rfl

theorem signal_discard (s : Script) : s.discard.signal = s.signal := by
  unfold discard
  split <;> rfl

/-- Beginning to watch changes the watch and nothing else. -/
theorem startWatch_fields (w : Workspace η) (s : Script) :
    (startWatch w s).1.files = w.files ∧ (startWatch w s).1.context = w.context ∧
      (startWatch w s).2.code = s.code ∧
      (startWatch w s).2.footing = { s.footing with watch := (startWatch w s).2.watch } := by
  rcases startWatch_cases w s with heq | ⟨watch, heq⟩ | ⟨line, heq⟩ <;>
    · rw [heq]
      exact ⟨rfl, rfl, rfl, rfl⟩

/-- A script that comes back into service keeps its code and its signal. -/
theorem resume_frame (w : Workspace η) (s : Script) :
    (resume w s).1.files = w.files ∧ (resume w s).2.code = s.code ∧
      (resume w s).2.path = s.path ∧ (resume w s).2.signal = s.signal ∧
      (resume w s).2.discarded = false := by
  unfold resume
  split
  · obtain ⟨hfiles, -, hcode, hfooting⟩ := startWatch_fields w { s with discarded := false }
    exact ⟨hfiles, hcode, congrArg Footing.path hfooting, congrArg Footing.signal hfooting,
      congrArg Footing.discarded hfooting⟩
  · next hd => exact ⟨rfl, rfl, rfl, rfl, by simpa using hd⟩

/-- A notice can raise the signal, and does nothing else. -/
theorem notice_cases (s : Script) (f : Files) (touches : List Touch) :
    s.notice f touches = s ∨ (s.watch.isSome = true ∧ s.notice f touches = s.requestReload) := by
  unfold notice
  cases hw : s.watch with
  | none => exact .inl rfl
  | some watch =>
    dsimp only
    split
    · exact .inr ⟨rfl, rfl⟩
    · exact .inl rfl

@[simp] theorem discarded_notice (s : Script) (f : Files) (touches : List Touch) :
    (s.notice f touches).discarded = s.discarded := by
  rcases notice_cases s f touches with heq | ⟨-, heq⟩ <;> rw [heq]
  rfl

/-! ## Section 5 - loading -/

/-- What a script is made of when its source has been compiled: it is in service, not yet watched,
    and its signal is down. -/
theorem ofSource_ok {w w' : Workspace η} {identity source : String} {p : Path} {options : ScriptOptions}
    {s : Script} (h : ofSource w identity p options source = (w', .ok s)) :
    ∃ extracted, (w.extract source).2 = .ok extracted ∧
      s.code = (some extracted.behaviour, some source) ∧
      s.footing = ⟨identity, p, options, {}, none, false⟩ ∧ w'.files = w.files := by
  have hfiles := w.files_extract source
  unfold ofSource at h
  cases hx : w.extract source with
  | mk w₁ result =>
    rw [hx] at h hfiles
    cases result with
    | error error => cases h
    | ok extracted =>
      simp only [Prod.mk.injEq, Except.ok.injEq] at h
      obtain ⟨rfl, rfl⟩ := h
      exact ⟨extracted, rfl, rfl, rfl, hfiles⟩

/-- A script that has been loaded has its type from the text that its source read. -/
theorem load_ok {w w' : Workspace η} {identity : String} {p : Path} {options : ScriptOptions}
    {s : Script} (h : load w identity p options = (w', .ok s)) :
    ∃ text extracted, w.readSource p = .ok text ∧ (w.extract text).2 = .ok extracted ∧
      s.code = (some extracted.behaviour, some text) ∧
      s.footing = ⟨identity, p, options, {}, s.watch, false⟩ ∧ w'.files = w.files := by
  unfold load at h
  cases htext : w.readSource p with
  | error error =>
    rw [htext] at h
    cases h
  | ok text =>
    rw [htext] at h
    dsimp only at h
    cases hs : ofSource w identity p options text with
    | mk w₁ result =>
      rw [hs] at h
      cases result with
      | error error => cases h
      | ok made =>
        simp only [Prod.mk.injEq, Except.ok.injEq] at h
        obtain ⟨rfl, rfl⟩ := h
        obtain ⟨extracted, hx, hcode, hfooting, hfiles⟩ := ofSource_ok hs
        obtain ⟨hkept, -, hcode', hfooting'⟩ := startWatch_fields w₁ made
        rw [hfooting] at hfooting'
        exact ⟨text, extracted, rfl, hx, hcode'.trans hcode, hfooting', hkept.trans hfiles⟩

/-- A source that can be read and compiled is loaded. -/
theorem load_of_extract {w : Workspace η} {source : String} {p : Path} {extracted : Extracted}
    (hread : w.readSource p = .ok source) (hx : (w.extract source).2 = .ok extracted)
    (identity : String) (options : ScriptOptions) :
    ∃ w' s, load w identity p options = (w', .ok s) := by
  cases hextract : w.extract source with
  | mk w₁ result =>
    rw [hextract] at hx
    obtain rfl : result = .ok extracted := hx
    simp only [load, hread, ofSource, hextract]
    exact ⟨_, _, rfl⟩

/-- Loading changes no file, whether it succeeds or not. -/
theorem files_load (w : Workspace η) (identity : String) (p : Path) (options : ScriptOptions) :
    (load w identity p options).1.files = w.files := by
  unfold load
  cases w.readSource p with
  | error error => rfl
  | ok text =>
    dsimp only
    have hfiles := w.files_extract text
    unfold ofSource
    cases hx : w.extract text with
    | mk w₁ result =>
      rw [hx] at hfiles
      cases result with
      | error error => exact hfiles
      | ok extracted =>
        -- beginning to watch keeps the files as well
        exact (startWatch_fields _ _).1.trans hfiles

/-! ## Section 6 - scripts that are up to date -/

/-- The type of a script was compiled from what its source reads now; or the script has no type, and
    what its source reads now does not compile. -/
def UpToDate (w : Workspace η) (s : Script) : Prop :=
  match s.compiled with
  | some _ => ∃ text, w.readSource s.path = .ok text ∧ s.source = some text
  | none => ∀ text, w.readSource s.path = .ok text → ∃ error, (w.extract text).2 = .error error

/-- Whether a script is up to date is a matter of its code and its path. -/
theorem upToDate_congr {w : Workspace η} {s s' : Script} (hcode : s'.code = s.code)
    (hpath : s'.path = s.path) : s'.UpToDate w ↔ s.UpToDate w := by
  have hcompiled : s'.compiled = s.compiled := congrArg Prod.fst hcode
  have hsource : s'.source = s.source := congrArg Prod.snd hcode
  unfold UpToDate
  rw [hcompiled, hsource, hpath]

/-! ## Section 7 - reloads -/

/-- The code of a script after a reload from a text that has been read, or could not be. -/
def recoded (w : Workspace η) (s : Script) (text : Except ScriptError String) :
    Option BehaviourType × Option String :=
  if s.isUnchanged text then s.code
  else
    match text with
    | .error _ => (none, none)
    | .ok source =>
      match (w.extract source).2 with
      | .error _ => (none, none)
      | .ok extracted => (some extracted.behaviour, some source)

/-- Whatever type a reload leaves behind comes from the text. -/
theorem source_of_recoded {w : Workspace η} {s : Script} {text : Except ScriptError String}
    (h : (recoded w s text).1.isSome = true) : ∃ source, text = .ok source ∧
      (recoded w s text).2 = some source := by
  unfold recoded at h ⊢
  by_cases hsame : s.isUnchanged text = true
  · rw [if_pos hsame]
    cases text with
    | error error => cases hsame
    | ok source =>
      -- a reload is skipped only if there is a type from the very text
      obtain ⟨-, htold⟩ := by simpa [isUnchanged] using hsame
      exact ⟨source, rfl, htold⟩
  · rw [if_neg hsame] at h ⊢
    cases text with
    | error error => cases h
    | ok source =>
      refine ⟨source, rfl, ?_⟩
      dsimp only at h ⊢
      split at h
      · cases h
      · rfl

/-- A reload that leaves no type behind has met a text that does not compile. -/
theorem error_of_recoded {w : Workspace η} {s : Script} {text : String}
    (h : (recoded w s (.ok text)).1 = none) : ∃ error, (w.extract text).2 = .error error := by
  unfold recoded at h
  by_cases hsame : s.isUnchanged (.ok text) = true
  · rw [if_pos hsame] at h
    obtain ⟨⟨-, hsome⟩, -⟩ := by simpa [isUnchanged] using hsame
    have hnone : s.compiled = none := h
    rw [hnone] at hsome
    cases hsome
  · rw [if_neg hsame] at h
    dsimp only at h
    split at h
    · next error hx => exact ⟨error, hx⟩
    · cases h

section reloads
variable [Host η]

theorem strip_fields (w : Workspace η) (s : Script) :
    (strip w s).1.files = w.files ∧ (strip w s).1.context = w.context := by
  -- the reports name the whole script while the list becomes shorter, so only the list varies
  suffices hall : ∀ (l : List Attachment) (w : Workspace η),
      (l.foldl (fun w a => destroyInstance w s a) w).files = w.files ∧
        (l.foldl (fun w a => destroyInstance w s a) w).context = w.context from hall s.attachments w
  intro l
  induction l with
  | nil => exact fun w => ⟨rfl, rfl⟩
  | cons a rest ih =>
    intro w
    obtain ⟨hfiles, hcontext⟩ := ih (destroyInstance w s a)
    exact ⟨hfiles.trans (files_destroyInstance w s a),
      hcontext.trans (context_destroyInstance w s a)⟩

theorem readd_frame (w : Workspace η) (s : Script) (type : BehaviourType) (es : List Entity) :
    Frame w (readd w s type es).1 s (readd w s type es).2 := by
  induction es generalizing w s with
  | nil => exact .refl w s
  | cons e es ih =>
    have hfiles := w.files_addBehaviour e type
    cases hr : (w.addBehaviour e type).2 with
    | ok ref =>
      rw [readd_cons_of_ok hr]
      obtain ⟨hrest, hfooting, hcode⟩ := ih (w.addBehaviour e type).1 (s.link e ref)
      exact ⟨hrest.trans hfiles, hfooting, hcode⟩
    | error error =>
      obtain ⟨line, heq⟩ := readd_cons_of_error hr s es
      rw [heq]
      obtain ⟨hrest, hfooting, hcode⟩ := ih ((w.addBehaviour e type).1.say line) s
      exact ⟨hrest.trans hfiles, hfooting, hcode⟩

/-- A reload changes no file and leaves the footing as it was, and the text decides the new code. -/
theorem recompileFrom_fields (w : Workspace η) (s : Script) (text : Except ScriptError String) :
    (recompileFrom w s text).1.files = w.files ∧
      (recompileFrom w s text).2.1.footing = s.footing ∧
      (recompileFrom w s text).2.1.code = recoded w s text := by
  obtain ⟨hfiles, hcontext⟩ := strip_fields w s
  unfold recompileFrom recoded
  by_cases hsame : s.isUnchanged text = true
  · rw [if_pos hsame, if_pos hsame]
    exact ⟨rfl, rfl, rfl⟩
  · rw [if_neg hsame, if_neg hsame]
    cases text with
    | error error => exact ⟨hfiles, rfl, rfl⟩
    | ok source =>
      -- the compiler is the one from before the instances were removed
      have hextract := Workspace.extract_congr hcontext source
      have hextracted := (strip w s).1.files_extract source
      dsimp only
      cases hx : (strip w s).1.extract source with
      | mk w' result =>
        rw [hx] at hextract hextracted
        rw [← hextract]
        cases result with
        | error error => exact ⟨hextracted.trans hfiles, rfl, rfl⟩
        | ok extracted =>
          let stripped : Script := { (strip w s).2 with
            generation := s.generation + 1, compiled := some extracted.behaviour, source := some source }
          have hreadd := readd_frame w' stripped extracted.behaviour s.roster
          exact ⟨hreadd.files.trans (hextracted.trans hfiles), hreadd.footing, hreadd.code⟩

theorem recompile_fields (w : Workspace η) (s : Script) :
    (recompile w s).1.files = w.files ∧ (recompile w s).2.1.footing = s.footing ∧
      (recompile w s).2.1.code = recoded w s (w.readSource s.path) :=
  recompileFrom_fields w s (w.readSource s.path)

/-- A reload brings a script up to date. -/
theorem upToDate_recompile (w : Workspace η) (s : Script) : (recompile w s).2.1.UpToDate w := by
  obtain ⟨-, hfooting, hcode⟩ := recompile_fields w s
  have hpath : (recompile w s).2.1.path = s.path := path_of_footing hfooting
  have hcompiled : (recompile w s).2.1.compiled = (recoded w s (w.readSource s.path)).1 :=
    congrArg Prod.fst hcode
  have hsource : (recompile w s).2.1.source = (recoded w s (w.readSource s.path)).2 :=
    congrArg Prod.snd hcode
  unfold UpToDate
  rw [hpath, hcompiled, hsource]
  cases hc : (recoded w s (w.readSource s.path)).1 with
  | some type => exact source_of_recoded (by rw [hc]; rfl)
  | none =>
    intro text htext
    rw [htext] at hc
    exact error_of_recoded hc

/-- So does an update, if a change waits for an answer. -/
theorem upToDate_update {w : Workspace η} {s : Script} (hd : s.discarded = false)
    (hr : s.signal.raised = true) : (update w s).2.1.UpToDate w := by
  rcases update_cases w s with ⟨-, -, heq⟩ | ⟨hidle, -⟩
  · rw [heq]
    exact upToDate_recompile w s.answered
  · rcases hidle with h | h
    · rw [hd] at h
      cases h
    · rw [hr] at h
      cases h

end reloads

/-! ## Section 8 - what a call does to the footing -/

namespace Footing

/-- Once the source is watched, if that is wanted and can be. -/
def watched (f : Files) (k : Footing) : Footing :=
  if !k.options.hotReload ∨ k.watch.isSome then k
  else
    match Watch.start f k.path with
    | .ok watch => { k with watch := some watch }
    | .error _ => k

/-- After a call that finds the given files. -/
def after (f : Files) (k : Footing) : Call → Footing
  | .requestReload => { k with signal := k.signal.raise }
  | .update => if k.discarded then k else { k with signal := ⟨false⟩ }
  | .discard => if k.discarded then k else { k with watch := none, discarded := true }
  | .resume => if k.discarded then { k with discarded := false }.watched f else k
  | .attach _ | .detach _ | .detachAll | .reattach | .recompile => k

/-- After the news of a change of the files. -/
def noticed (f : Files) (touches : List Touch) (k : Footing) : Footing :=
  if k.watch.any fun watch => touches.any (watch.sees f) then { k with signal := k.signal.raise } else k

end Footing

theorem footing_startWatch (w : Workspace η) (s : Script) :
    (startWatch w s).2.footing = s.footing.watched w.files := by
  unfold startWatch Footing.watched footing
  dsimp only
  -- whether the watch starts is decided by the files and the path, which both sides have in common
  cases Watch.start w.files s.path <;> split <;> rfl

/-- The footing of a script that has just been loaded. -/
theorem footing_load {w w' : Workspace η} {identity : String} {p : Path} {options : ScriptOptions} {s : Script}
    (h : load w identity p options = (w', .ok s)) :
    s.footing = (⟨identity, p, options, {}, none, false⟩ : Footing).watched w.files := by
  unfold load at h
  split at h
  · cases h
  · next source _ =>
    cases hs : ofSource w identity p options source with
    | mk w₁ result =>
      rw [hs] at h
      cases result with
      | error error => cases h
      | ok made =>
        simp only [Prod.mk.injEq, Except.ok.injEq] at h
        obtain ⟨-, rfl⟩ := h
        obtain ⟨-, -, -, hfooting, hfiles⟩ := ofSource_ok hs
        rw [footing_startWatch, hfooting, hfiles]

theorem footing_notice (s : Script) (f : Files) (touches : List Touch) :
    (s.notice f touches).footing = s.footing.noticed f touches := by
  unfold notice
  split
  · next watch hw =>
    have hsees : (s.footing.watch.any fun watch => touches.any (watch.sees f)) = touches.any (watch.sees f) :=
      congrArg (Option.any _) hw
    rw [Footing.noticed, hsees]
    split <;> rfl
  · next hw =>
    have hblind : (s.footing.watch.any fun watch => touches.any (watch.sees f)) = false :=
      congrArg (Option.any _) hw
    rw [Footing.noticed, hblind]
    rfl

theorem footing_call [Host η] (w : Workspace η) (s : Script) (c : Call) :
    (s.call w c).2.footing = s.footing.after w.files c := by
  cases c with
  | attach e => exact (attach_frame w s e).footing
  | detach e => exact (detach_frame w s e).footing
  | detachAll => exact (detachAll_frame w s).footing
  | reattach => exact (reattach_frame w s).footing
  | requestReload => rfl
  | recompile => exact (recompile_fields w s).2.1
  | update =>
    show (update w s).2.1.footing = if s.discarded = true then s.footing else s.answered.footing
    rcases update_cases w s with ⟨hd, -, heq⟩ | ⟨hidle, heq⟩ <;> rw [heq]
    · rw [hd]
      exact (recompile_fields w s.answered).2.1
    · rcases hidle with hd | hr
      · rw [if_pos hd]
      · -- lowering a signal that is not raised changes nothing
        have hsame : s.answered = s := by rw [answered, ← hr]
        rw [hsame, ite_self]
  | discard =>
    show s.discard.footing = if s.discarded = true then s.footing else _
    unfold discard
    split <;> rfl
  | resume =>
    show (resume w s).2.footing = if s.discarded = true then _ else s.footing
    unfold resume
    split
    · exact footing_startWatch w { s with discarded := false }
    · rfl

/-- No call changes a file. -/
theorem files_call [Host η] (w : Workspace η) (s : Script) (c : Call) : (s.call w c).1.files = w.files := by
  cases c with
  | attach e => exact (attach_frame w s e).files
  | detach e => exact (detach_frame w s e).files
  | detachAll => exact (detachAll_frame w s).files
  | reattach => exact (reattach_frame w s).files
  | recompile => exact (recompile_fields w s).1
  | update =>
    show (update w s).1.files = w.files
    rcases update_cases w s with ⟨-, -, heq⟩ | ⟨-, heq⟩ <;> rw [heq]
    exact (recompile_fields w s.answered).1
  | resume => exact (resume_frame w s).1
  | requestReload => rfl
  | discard => rfl

end Script

end HotReload
