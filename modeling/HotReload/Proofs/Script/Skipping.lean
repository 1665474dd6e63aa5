import HotReload.Proofs.HostedScripts.Restart
import HotReload.Proofs.Script.Chronicle
import HotReload.Proofs.Script.Polling

/-! # Skipping what is unchanged

    A script may be told to skip a reload if the text that it has just read is the one
    that its type was compiled from.  Here such a script is followed side by side with a
    *twin* that was loaded from the same text and always compiles.  The same calls are
    made of both, and at each of them both find the same files; everything else that
    they meet may differ.

    The two keep in step for two reasons.  Where a script stands, and what it does when
    it is called, is a matter of its footing, in which the twins differ by the option
    alone.  And what its code comes to is decided by the text that was read last: a
    script has a type exactly if that text declares one type that compiles (`Fits`).  A
    reload that is skipped relies on the second of these, and therefore keeps it. -/

namespace HotReload

/-! ## Section 1 - texts and codes -/

/-- What the name of every marker begins with. -/
def markerPrefix : List Char := "ReloadMarker_".toList

/-- A text that declares no type with a name like that of a marker. -/
def Plain (source : String) : Prop :=
  ∀ ds, scan source = .ok ds → ∀ d ∈ ds, ¬ markerPrefix <+: d.name.toList

/-- A text that declares one type and no other, with a body that can be read. -/
structure Sole (source : String) (d : Declaration) : Prop where
  scanned : scan source = .ok [d]
  body : ∃ program, Body.Program.parse d.body = .ok program

/-- A text that is plain is rejected for no marker. -/
theorem Sole.not_rejects {source : String} {d : Declaration} (h : Sole source d) (hplain : Plain source)
    (n : Nat) : ¬ Rejects source (markerName n) := by
  refine not_rejects_iff.2 ⟨[d], h.scanned, ⟨List.nodup_singleton _, ?_⟩, ?_⟩
  · intro d' hd'
    rw [List.mem_singleton.1 hd']
    exact h.body
  · intro hmem
    have hname : markerName n = d.name := by simpa using hmem
    refine hplain [d] h.scanned d List.mem_cons_self ?_
    rw [← hname, toList_markerName]
    exact List.prefix_append _ _

namespace Compiler

theorem reflects_congr {c c' : Compiler} (h : c'.modules = c.modules) : c'.Reflects ↔ c.Reflects := by
  unfold Reflects
  rw [h]

theorem unforged_congr {c c' : Compiler} (h : c'.modules = c.modules) : c'.Unforged ↔ c.Unforged := by
  unfold Unforged
  rw [h]

/-- Where nothing is offered under the signature of the reflection, nothing passes itself off as it. -/
theorem Reflects.unforged {c : Compiler} (h : c.Reflects) : c.Unforged := by
  intro m hm f hf
  rw [h m hm] at hf
  cases hf

end Compiler

namespace Context

/-- What expressions may call once the compiler is in use. -/
def callable (c : Context) : List HostModule := c.bootstrap.1.compiler.modules

/-- A text that can be extracted declares one type, which is what is extracted. -/
theorem sole_of_extract {c : Context} (h : c.bootstrap.1.compiler.Unforged) {source : String} {x : Extracted}
    (hx : (c.extract source).value = .ok x) :
    ∃ d, Sole source d ∧ CompilesTo x.behaviour.assembly d x.behaviour := by
  obtain ⟨d, hscan, ht⟩ := compilesTo_of_extract h hx
  exact ⟨d, ⟨hscan, _, ht.program⟩, ht⟩

/-- A plain text that declares one type can be extracted. -/
theorem extract_of_sole {c : Context} (h : c.bootstrap.1.compiler.Reflects) {source : String}
    (hplain : Plain source) {d : Declaration} (hsole : Sole source d) :
    ∃ x, (c.extract source).value = .ok x := by
  obtain ⟨ds, types, assembly, report, hemits⟩ :=
    emits_of_not_rejects h (hsole.not_rejects hplain c.nextMarker)
  have hds : ds = [d] := Except.ok.inj (hemits.scanned.symm.trans hsole.scanned)
  have hyields := hemits.yields
  rw [hds] at hyields
  obtain ⟨t, report', hvalue, -⟩ := hyields
  exact ⟨_, hvalue⟩

end Context

/-- Whether there is a type and where it comes from, told from the text that was read last. -/
structure Fits (code : Option BehaviourType × Option String) (text : Except ScriptError String) : Prop where
  typed : code.1.isSome = true ↔ ∃ source d, text = .ok source ∧ Sole source d
  made : ∀ t, code.1 = some t →
    ∃ source d, text = .ok source ∧ code.2 = some source ∧ Sole source d ∧ CompilesTo t.assembly d t

namespace Fits
variable {code code' : Option BehaviourType × Option String} {text : Except ScriptError String}

/-- There is a type on both sides or on neither. -/
theorem isSome_eq (h : Fits code text) (h' : Fits code' text) : code'.1.isSome = code.1.isSome := by
  rw [Bool.eq_iff_iff, h.typed, h'.typed]

/-- The types are alike. -/
theorem alike (h : Fits code text) (h' : Fits code' text) {t t' : BehaviourType} (ht : code.1 = some t)
    (ht' : code'.1 = some t') : t.Alike t' := by
  obtain ⟨source, d, htext, -, hsole, hmade⟩ := h.made t ht
  obtain ⟨source', d', htext', -, hsole', hmade'⟩ := h'.made t' ht'
  obtain rfl : source = source' := Except.ok.inj (htext.symm.trans htext')
  have hd : [d] = [d'] := Except.ok.inj (hsole.scanned.symm.trans hsole'.scanned)
  obtain rfl : d = d' := List.head_eq_of_cons_eq hd
  have hprogram : t.program = t'.program := Except.ok.inj (hmade.program.symm.trans hmade'.program)
  exact ⟨hmade'.name.trans hmade.name.symm, hmade'.base.trans hmade.base.symm, hprogram.symm⟩

theorem of_error (error : ScriptError) : Fits (none, none) (.error error) where
  typed := by simp
  made := fun _ h => nomatch h

end Fits

/-- What a compiler makes of a plain text fits this text. -/
theorem Context.fits_extract {c : Context} (h : c.bootstrap.1.compiler.Reflects) {source : String}
    (hplain : Plain source) :
    (∀ x, (c.extract source).value = .ok x → Fits (some x.behaviour, some source) (.ok source)) ∧
      (∀ error, (c.extract source).value = .error error → Fits (none, none) (.ok source)) := by
  constructor
  · intro x hx
    obtain ⟨d, hsole, ht⟩ := c.sole_of_extract h.unforged hx
    refine ⟨⟨fun _ => ⟨source, d, rfl, hsole⟩, fun _ => rfl⟩, ?_⟩
    rintro t ⟨⟩
    exact ⟨source, d, rfl, rfl, hsole, ht⟩
  · intro error herror
    refine ⟨⟨nofun, ?_⟩, nofun⟩
    rintro ⟨source', d, hsource, hsole⟩
    obtain rfl : source = source' := Except.ok.inj hsource
    obtain ⟨x, hx⟩ := c.extract_of_sole h hplain hsole
    rw [herror] at hx
    cases hx

namespace Script

variable {η : Type}

/-- A reload keeps the code fitting: to the new text, whether it compiles this text or skips it. -/
theorem recoded_fits {w : Workspace η} {s : Script} {last text : Except ScriptError String}
    (hreflects : w.context.bootstrap.1.compiler.Reflects) (hlast : Fits s.code last)
    (hplain : ∀ source, text = .ok source → Plain source) : Fits (recoded w s text) text := by
  unfold recoded
  by_cases hsame : s.isUnchanged text = true
  · rw [if_pos hsame]
    cases text with
    | error error => cases hsame
    | ok source =>
      -- the type was compiled from the text that was read last, so this is that text
      obtain ⟨⟨-, hsome⟩, hnoted⟩ := by simpa [isUnchanged] using hsame
      obtain ⟨t, ht⟩ := Option.isSome_iff_exists.1 hsome
      obtain ⟨source', d, htext, hsource, -⟩ := hlast.made t ht
      obtain rfl : source = source' := Option.some.inj (hnoted.symm.trans hsource)
      rwa [← htext]
  · rw [if_neg hsame]
    cases text with
    | error error => exact .of_error error
    | ok source =>
      obtain ⟨hok, herror⟩ := Context.fits_extract hreflects (hplain source rfl)
      dsimp only
      split
      · next error hx => exact herror error hx
      · next x hx => exact hok x hx

/-! ## Section 2 - one option -/

namespace Footing

/-- The same footing, but for the option to skip what is unchanged. -/
def withSkip (on : Bool) (k : Footing) : Footing := { k with options := { k.options with skipUnchanged := on } }

theorem watched_withSkip (f : Files) (k : Footing) (on : Bool) :
    (k.withSkip on).watched f = (k.watched f).withSkip on := by
  unfold watched withSkip
  dsimp only
  split
  · rfl
  · split <;> rfl

/-- No call looks at the option when it comes to the footing. -/
theorem after_withSkip (f : Files) (k : Footing) (c : Call) (on : Bool) :
    (k.withSkip on).after f c = (k.after f c).withSkip on := by
  cases c with
  | update =>
    unfold after withSkip
    dsimp only
    split <;> rfl
  | discard =>
    unfold after withSkip
    dsimp only
    split <;> rfl
  | resume =>
    have hback : ({ k.withSkip on with discarded := false } : Footing) =
        { k with discarded := false }.withSkip on := rfl
    unfold after
    rw [hback, watched_withSkip]
    exact (apply_ite (withSkip on) _ _ _).symm
  | _ => rfl

theorem noticed_withSkip (f : Files) (touches : List Touch) (k : Footing) (on : Bool) :
    (k.withSkip on).noticed f touches = (k.noticed f touches).withSkip on := by
  unfold noticed withSkip
  dsimp only
  split <;> rfl

end Footing

variable [Host η]

/-! ## Section 3 - what a call does to the code -/

/-- Whether a call reads the source. -/
def reads (s : Script) : Call → Bool
  | .recompile => true
  | .update => !s.discarded && s.signal.raised
  | .attach _ | .detach _ | .detachAll | .reattach | .requestReload | .discard | .resume => false

/-- A call that reads the source is a reload from it, of a script whose signal may have been taken before. -/
theorem call_of_reads (w : Workspace η) {s : Script} {c : Call} (h : s.reads c = true) :
    ∃ s₀ : Script, (s₀ = s ∨ s₀ = s.answered) ∧ s.call w c = ((recompile w s₀).1, (recompile w s₀).2.1) := by
  cases c with
  | recompile => exact ⟨s, .inl rfl, rfl⟩
  | update =>
    obtain ⟨hd, hr⟩ : s.discarded = false ∧ s.signal.raised = true := by simpa [reads] using h
    refine ⟨s.answered, .inr rfl, ?_⟩
    rcases update_cases w s with ⟨-, -, heq⟩ | ⟨hidle, -⟩
    · show ((update w s).1, (update w s).2.1) = _
      rw [heq]
    · simp [hd, hr] at hidle
  | _ => cases h

/-- An update that does not read the source does nothing. -/
theorem update_of_not_reads (w : Workspace η) {s : Script} (h : s.reads .update = false) :
    update w s = (w, s, false) := by
  rcases update_cases w s with ⟨hd, hr, -⟩ | ⟨-, heq⟩
  · simp [reads, hd, hr] at h
  · exact heq

/-- The text decides the code, if it is read, and the code stays as it was if not. -/
theorem code_call (w : Workspace η) (s : Script) (c : Call) :
    (s.call w c).2.code = if s.reads c then recoded w s (w.readSource s.path) else s.code := by
  by_cases hreads : s.reads c = true
  · rw [if_pos hreads]
    obtain ⟨s₀, hs₀, hcall⟩ := call_of_reads w hreads
    rw [hcall]
    rcases hs₀ with rfl | rfl
    · exact (recompile_fields w s₀).2.2
    · exact (recompile_fields w s.answered).2.2
  · rw [if_neg hreads]
    cases c with
    | update =>
      show (update w s).2.1.code = s.code
      rw [update_of_not_reads w (by simpa using hreads)]
    | recompile => exact absurd rfl hreads
    | requestReload => rfl
    | _ => exact (call_aside w s rfl).2.1

/-! ## Section 4 - what is reported as skipped -/

/-- From one state of a script to another, events are added, and none of them reports a reload as skipped.  Such an
    event may have waited before; another one of the same text is none of the events that are added. -/
def Unskipped (s s' : Script) : Prop :=
  ∃ new, s'.events = s.events.pushAll new ∧ ∀ identity, .recompileSkipped identity ∉ new

theorem unskipped_iff {s s' : Script} :
    Unskipped s s' ↔ Withholds (fun e => ∃ identity, e = .recompileSkipped identity) s s' := by
  unfold Unskipped Withholds
  refine exists_congr fun new => and_congr_right fun _ => ?_
  constructor
  · rintro h e hmem ⟨identity, rfl⟩
    exact h identity hmem
  · exact fun h identity hmem => h _ hmem ⟨identity, rfl⟩

namespace Unskipped
variable {s s' s'' : Script}

theorem of_eq (h : s'.events = s.events) : Unskipped s s' := unskipped_iff.2 (.of_eq h)

theorem trans (h : Unskipped s s') (h' : Unskipped s' s'') : Unskipped s s'' :=
  unskipped_iff.2 ((unskipped_iff.1 h).trans (unskipped_iff.1 h'))

theorem of_push {e : Event} (h : s'.events = s.events.push e) (he : ∀ identity, e ≠ .recompileSkipped identity) :
    Unskipped s s' :=
  unskipped_iff.2 (.of_push h fun ⟨identity, hsame⟩ => he identity hsame)

/-- A reload that has something to do is reported as failed or as done. -/
theorem recompile {w : Workspace η} (h : s.isUnchanged (w.readSource s.path) = false) :
    Unskipped s (recompile w s).2.1 := by
  rcases events_recompile w s with ⟨hsame, -⟩ | ⟨-, error, suspended, hevents⟩ |
    ⟨-, type, generation, reattached, elapsed, hevents⟩
  · rw [h] at hsame
    cases hsame
  · exact .of_push hevents nofun
  · exact .of_push hevents nofun

/-- Every call keeps quiet that does not find what the script has its type from. -/
theorem call {w : Workspace η} {c : Call}
    (h : s.reads c = true → s.isUnchanged (w.readSource s.path) = false) : Unskipped s (s.call w c).2 := by
  by_cases hreads : s.reads c = true
  · obtain ⟨s₀, hs₀, hcall⟩ := call_of_reads w hreads
    rw [hcall]
    rcases hs₀ with rfl | rfl
    · exact .recompile (h hreads)
    · have hanswered : s.answered.isUnchanged (w.readSource s.answered.path) = false := h hreads
      have htaken : Unskipped s s.answered := .of_eq rfl
      exact htaken.trans (.recompile hanswered)
  · cases c with
    | attach e => exact unskipped_iff.2 (.attach (fun _ _ => nofun) w s e)
    | detach e => exact unskipped_iff.2 (.detach (fun _ _ => nofun) w s e)
    | detachAll =>
      have hcut : Unskipped s { s with suspended := [] } := .of_eq rfl
      exact hcut.trans (unskipped_iff.2 (.detachEach (fun _ _ => nofun) w _ s.attached))
    | reattach =>
      show Unskipped s (Script.reattach w s).2.1
      unfold Script.reattach
      split
      · exact .of_eq rfl
      · have hcut : Unskipped s { s with suspended := [] } := .of_eq rfl
        exact hcut.trans (unskipped_iff.2 (.attachEach (fun _ _ => nofun) w _ s.suspended))
    | requestReload => exact .of_eq rfl
    | update =>
      show Unskipped s (Script.update w s).2.1
      rw [update_of_not_reads w (by simpa using hreads)]
      exact .of_eq rfl
    | recompile => exact absurd rfl hreads
    | discard => exact unskipped_iff.2 (.discard (fun _ => nofun) s)
    | resume => exact .of_eq (tells_resume w s).events

end Unskipped

/-- A call that does find it reports that, and nothing else. -/
theorem events_of_unchanged {w : Workspace η} {s : Script} {c : Call} (hreads : s.reads c = true)
    (h : s.isUnchanged (w.readSource s.path) = true) :
    (s.call w c).2.events = s.events.push (.recompileSkipped s.identity) := by
  have hskip : ∀ s₀ : Script, s₀.isUnchanged (w.readSource s₀.path) = true →
      (recompile w s₀).2.1 = s₀.push (.recompileSkipped s₀.identity) := by
    intro s₀ hs₀
    rw [recompile, recompileFrom, if_pos hs₀]
  obtain ⟨s₀, hs₀, hcall⟩ := call_of_reads w hreads
  rw [hcall]
  rcases hs₀ with rfl | rfl
  · exact congrArg events (hskip s₀ h)
  · exact congrArg events (hskip s.answered h)

/-! ## Section 5 - twins -/

/-- A script that compiles at every reload, and its twin, which skips what is unchanged, with the text that was
    read last.  They have been loaded from one text, and the same calls have been made of both.  Whenever
    they read, the text is plain.  At every call both find the same files, but may meet different
    compilers, which offer the same modules, and different hosts. -/
inductive Twins (modules : List HostModule) : Script → Script → Except ScriptError String → Prop where
  | load {η η' : Type} (w : Workspace η) (w' : Workspace η') (identity : String) (p : Path)
    (options : ScriptOptions) {s s' : Script} {source : String} (hfiles : w'.files = w.files)
    (hmodules : w.context.callable = modules ∧ w'.context.callable = modules)
    (hread : w.readSource p = .ok source) (hplain : Plain source)
    (h : (load w identity p { options with skipUnchanged := false }).2 = .ok s)
    (h' : (load w' identity p { options with skipUnchanged := true }).2 = .ok s') :
    Twins modules s s' (.ok source)
  | call {η η' : Type} [Host η] [Host η'] (w : Workspace η) (w' : Workspace η') {s s' : Script}
    {last : Except ScriptError String} (h : Twins modules s s' last) (c : Call) (hfiles : w'.files = w.files)
    (hmodules : w.context.callable = modules ∧ w'.context.callable = modules)
    (hplain : ∀ source, w.readSource s.path = .ok source → Plain source) :
    Twins modules (s.call w c).2 (s'.call w' c).2 (if s.reads c then w.readSource s.path else last)
  | notice {s s' : Script} {last : Except ScriptError String} (h : Twins modules s s' last) (f : Files)
    (touches : List Touch) : Twins modules (s.notice f touches) (s'.notice f touches) last
  | drain {s s' : Script} {last : Except ScriptError String} (h : Twins modules s s' last) :
    Twins modules s.drainEvents.1 s'.drainEvents.1 last

/-- What carries the twins from call to call. -/
structure InStep (modules : List HostModule) (s s' : Script) (last : Except ScriptError String) : Prop where
  /-- The twins were loaded, so no module is in the way of the reflection. -/
  reflects : ({ modules } : Compiler).Reflects
  footing : s.footing = s.footing.withSkip false
  footing' : s'.footing = s.footing.withSkip true
  fits : Fits s.code last
  fits' : Fits s'.code last

/-- What an observer sees of the twins. -/
structure Agree (s s' : Script) (last : Except ScriptError String) : Prop where
  state : s'.state = s.state
  typed : s'.compiled.isSome = s.compiled.isSome
  alike : ∀ t t', s.compiled = some t → s'.compiled = some t' → t.Alike t'
  /-- If there is a type, it was compiled from the text that was read last. -/
  origin : ∀ t, s.compiled = some t ∨ s'.compiled = some t →
    ∃ source d, last = .ok source ∧ Sole source d ∧ CompilesTo t.assembly d t
  /-- A reload is reported as skipped only where there is a type and the text that is read now is the text that
      was read last, -/
  skips : ∀ {η : Type} [Host η] (w : Workspace η) (c : Call), Unskipped s' (s'.call w c).2 ∨
    (s'.reads c = true ∧ s'.compiled.isSome = true ∧ w.readSource s'.path = last)
  /-- and it always is there. -/
  spares : ∀ {η : Type} [Host η] (w : Workspace η) (c : Call), s'.reads c = true → s'.compiled.isSome = true →
    w.readSource s'.path = last → (s'.call w c).2.events = s'.events.push (.recompileSkipped s'.identity)
  /-- The other one never does so. -/
  never : ∀ {η : Type} [Host η] (w : Workspace η) (c : Call), Unskipped s (s.call w c).2

namespace InStep
variable {η η' : Type} {modules : List HostModule} {s s' : Script} {last : Except ScriptError String}

theorem path_eq (h : InStep modules s s' last) : s'.path = s.path := congrArg Footing.path h.footing'

theorem signal_eq (h : InStep modules s s' last) : s'.signal = s.signal := congrArg Footing.signal h.footing'

theorem discarded_eq (h : InStep modules s s' last) : s'.discarded = s.discarded :=
  congrArg Footing.discarded h.footing'

/-- The one always compiles. -/
theorem not_isUnchanged (h : InStep modules s s' last) (text : Except ScriptError String) :
    s.isUnchanged text = false := by
  have hoff : s.options.skipUnchanged = false := congrArg (fun k => k.options.skipUnchanged) h.footing
  unfold isUnchanged
  split
  · rw [hoff, Bool.false_and, Bool.false_and]
  · rfl

/-- The other one skips a text exactly if it has a type and the text is the one that was read last. -/
theorem isUnchanged_iff (h : InStep modules s s' last) (text : Except ScriptError String) :
    s'.isUnchanged text = true ↔ s'.compiled.isSome = true ∧ text = last := by
  have hon : s'.options.skipUnchanged = true := congrArg (fun k => k.options.skipUnchanged) h.footing'
  cases hc : s'.compiled with
  | none => simp [isUnchanged, hc]; split <;> simp
  | some t =>
    obtain ⟨source, d, hlast, hsource, -⟩ := h.fits'.made t hc
    -- what the script has noted as its source is the text that it was compiled from
    have hnoted : s'.source = some source := hsource
    rw [hlast]
    cases text with
    | error error => simp [isUnchanged]
    | ok text => simp [isUnchanged, hon, hc, hnoted, eq_comm]

theorem reads_eq (h : InStep modules s s' last) (c : Call) : s'.reads c = s.reads c := by
  cases c with
  | update => rw [reads, reads, h.discarded_eq, h.signal_eq]
  | _ => rfl

/-- Twins are in step once they are loaded. -/
theorem load {w : Workspace η} {w' : Workspace η'} {identity : String} {p : Path} {options : ScriptOptions}
    {source : String} (hunforged : ({ modules } : Compiler).Unforged) (hfiles : w'.files = w.files)
    (hmodules : w.context.callable = modules ∧ w'.context.callable = modules)
    (hread : w.readSource p = .ok source) (hplain : Plain source)
    (h : (load w identity p { options with skipUnchanged := false }).2 = .ok s)
    (h' : (load w' identity p { options with skipUnchanged := true }).2 = .ok s') :
    InStep modules s s' (.ok source) := by
  let k : Footing := ⟨identity, p, options, {}, none, false⟩
  have hload : Script.load w identity p { options with skipUnchanged := false } = (_, .ok s) := Prod.ext rfl h
  have hload' : Script.load w' identity p { options with skipUnchanged := true } = (_, .ok s') := Prod.ext rfl h'
  obtain ⟨text, x, htext, hx, hcode, -, -⟩ := load_ok hload
  obtain ⟨text', x', htext', hx', hcode', -, -⟩ := load_ok hload'
  rw [Workspace.readSource_congr hfiles] at htext'
  obtain rfl : source = text := Except.ok.inj (hread.symm.trans htext)
  obtain rfl : source = text' := Except.ok.inj (hread.symm.trans htext')
  have hown : w.context.bootstrap.1.compiler.Unforged := (Compiler.unforged_congr hmodules.1).2 hunforged
  obtain ⟨-, hreflects⟩ := Context.reflects_of_extract hown hx
  have hfree : ({ modules } : Compiler).Reflects := (Compiler.reflects_congr hmodules.1).1 hreflects
  have hreflects' : w'.context.bootstrap.1.compiler.Reflects := (Compiler.reflects_congr hmodules.2).2 hfree
  have hfooting : s.footing = (k.watched w.files).withSkip false :=
    (footing_load hload).trans (k.watched_withSkip w.files false)
  have hfooting' : s'.footing = (k.watched w.files).withSkip true := by
    rw [footing_load hload', hfiles]
    exact k.watched_withSkip w.files true
  refine ⟨hfree, ?_, ?_, ?_, ?_⟩
  · rw [hfooting]
    rfl
  · rw [hfooting, hfooting']
    rfl
  · rw [hcode]
    exact (Context.fits_extract hreflects hplain).1 x hx
  · rw [hcode']
    exact (Context.fits_extract hreflects' hplain).1 x' hx'

theorem notice (h : InStep modules s s' last) (f : Files) (touches : List Touch) :
    InStep modules (s.notice f touches) (s'.notice f touches) last := by
  have hcode : ∀ s : Script, (s.notice f touches).code = s.code := by
    intro s
    rcases notice_cases s f touches with heq | ⟨-, heq⟩ <;> rw [heq]
    rfl
  refine ⟨h.reflects, ?_, ?_, (hcode s).symm ▸ h.fits, (hcode s').symm ▸ h.fits'⟩
  · rw [footing_notice, ← Footing.noticed_withSkip, ← h.footing]
  · rw [footing_notice, footing_notice, h.footing', Footing.noticed_withSkip]

section calls
variable [Host η] [Host η']

/-- A call keeps the twins in step, whatever each of them makes of it. -/
theorem call (h : InStep modules s s' last) (w : Workspace η) (w' : Workspace η') (c : Call)
    (hfiles : w'.files = w.files) (hmodules : w.context.callable = modules ∧ w'.context.callable = modules)
    (hplain : ∀ source, w.readSource s.path = .ok source → Plain source) :
    InStep modules (s.call w c).2 (s'.call w' c).2 (if s.reads c then w.readSource s.path else last) := by
  have hreflects : w.context.bootstrap.1.compiler.Reflects := (Compiler.reflects_congr hmodules.1).2 h.reflects
  have hreflects' : w'.context.bootstrap.1.compiler.Reflects :=
    (Compiler.reflects_congr hmodules.2).2 h.reflects
  have hread : w'.readSource s'.path = w.readSource s.path := by
    rw [h.path_eq, Workspace.readSource_congr hfiles]
  -- the footing is the same but for the option; the code depends on the text alone, if it was read
  refine ⟨h.reflects, ?_, ?_, ?_, ?_⟩
  · rw [footing_call, ← Footing.after_withSkip, ← h.footing]
  · rw [footing_call, footing_call, h.footing', hfiles, Footing.after_withSkip]
  · rw [code_call]
    split
    · exact recoded_fits hreflects h.fits hplain
    · exact h.fits
  · rw [code_call, h.reads_eq, hread]
    split
    · exact recoded_fits hreflects' h.fits' hplain
    · exact h.fits'

end calls

/-- Twins that are in step look the same. -/
theorem agree (h : InStep modules s s' last) : Agree s s' last := by
  have htyped : s'.compiled.isSome = s.compiled.isSome := h.fits.isSome_eq h.fits'
  have hnone : s'.compiled.isNone = s.compiled.isNone := by
    rw [← Option.not_isSome, ← Option.not_isSome, htyped]
  refine ⟨?_, htyped, fun t t' ht ht' => h.fits.alike h.fits' ht ht', ?_, ?_, ?_, ?_⟩
  · rw [state, state, h.discarded_eq, h.signal_eq, hnone]
  · rintro t (ht | ht')
    · obtain ⟨source, d, htext, -, hmade⟩ := h.fits.made t ht
      exact ⟨source, d, htext, hmade⟩
    · obtain ⟨source, d, htext, -, hmade⟩ := h.fits'.made t ht'
      exact ⟨source, d, htext, hmade⟩
  · intro η _ w c
    by_cases hfound : s'.reads c = true ∧ s'.isUnchanged (w.readSource s'.path) = true
    · exact .inr ⟨hfound.1, (h.isUnchanged_iff _).1 hfound.2⟩
    · exact .inl (.call fun hreads => Bool.eq_false_iff.2 fun hsame => hfound ⟨hreads, hsame⟩)
  · intro η _ w c hreads hsome hread
    exact events_of_unchanged hreads ((h.isUnchanged_iff _).2 ⟨hsome, hread⟩)
  · exact fun w c => .call fun _ => h.not_isUnchanged _

end InStep

/-- Skipping what is unchanged cannot be told from compiling it: after every history of the source, and of the
    calls that are made of them, twins agree. -/
theorem agree_of_twins {modules : List HostModule} {s s' : Script} {last : Except ScriptError String}
    (hunforged : ({ modules } : Compiler).Unforged) (h : Twins modules s s' last) : Agree s s' last := by
  suffices hstep : InStep modules s s' last from hstep.agree
  induction h with
  | load w w' identity p options hfiles hmodules hread hplain h h' =>
    exact .load hunforged hfiles hmodules hread hplain h h'
  | call w w' _ c hfiles hmodules hplain ih => exact ih.call w w' c hfiles hmodules hplain
  | notice _ f touches ih => exact ih.notice f touches
  | drain _ ih => exact ⟨ih.reflects, ih.footing, ih.footing', ih.fits, ih.fits'⟩

/-! ### A source that is saved without a change -/

theorem plain_spin : Plain spinSource := by
  have hnames : ((scan spinSource).toOption.getD []).all
      (fun d => !markerPrefix.isPrefixOf d.name.toList) = true := by decide +kernel
  intro ds hds d hd hprefix
  rw [hds] at hnames
  have hname := List.all_eq_true.1 hnames d hd
  rw [List.isPrefixOf_iff_prefix.2 hprefix] at hname
  cases hname

/-- Twins whose source is saved without a change: one of them compiles it again and the other skips it, and yet
    they agree. -/
theorem agree_on_spin : ∃ s s' : Script,
    (s'.call spinWorkspace .update).2.events = s'.events.push (.recompileSkipped s'.identity) ∧
    Agree s s' (.ok spinSource) ∧
    Agree (s.call spinWorkspace .update).2 (s'.call spinWorkspace .update).2 (.ok spinSource) := by
  have hread : spinWorkspace.readSource ⟨"/spin"⟩ = .ok spinSource := by
    rw [Workspace.readSource, readText_spin rfl]
  have hx : (spinWorkspace.extract spinSource).2 = .ok _ := eq_ok_of_isOk (by decide +kernel)
  have hnone : spinWorkspace.context.callable = [] := List.length_eq_zero_iff.1 (by decide +kernel)
  have hunforged : ({ modules := [] } : Compiler).Unforged := fun m hm => absurd hm List.not_mem_nil
  obtain ⟨w, s, hload⟩ := load_of_extract hread hx "spin" { skipUnchanged := false }
  obtain ⟨w', s', hload'⟩ := load_of_extract hread hx "spin" { skipUnchanged := true }
  have hloaded : Twins [] s s' (.ok spinSource) := .load spinWorkspace spinWorkspace "spin" ⟨"/spin"⟩ {} rfl
    ⟨hnone, hnone⟩ hread plain_spin (congrArg Prod.snd hload) (congrArg Prod.snd hload')
  have hpath : ∀ {w s options}, load spinWorkspace "spin" ⟨"/spin"⟩ options = (w, .ok s) →
      s.path = ⟨"/spin"⟩ ∧ s.discarded = false ∧ s.compiled.isSome = true := by
    intro w s options hload
    obtain ⟨_, x, -, -, hcode, hfooting, -⟩ := load_ok hload
    have hcompiled : s.compiled = some x.behaviour := congrArg Prod.fst hcode
    exact ⟨congrArg Footing.path hfooting, congrArg Footing.discarded hfooting, by rw [hcompiled]; rfl⟩
  obtain ⟨hp, -, -⟩ := hpath hload
  obtain ⟨hp', hserving, htyped⟩ := hpath hload'
  have hplain : ∀ source, spinWorkspace.readSource s.path = .ok source → Plain source := by
    intro source hsource
    rw [hp, hread] at hsource
    exact Except.ok.inj hsource ▸ plain_spin
  -- the signal is raised, and then it is answered
  have hraised : Twins [] s.requestReload s'.requestReload (.ok spinSource) :=
    hloaded.call spinWorkspace spinWorkspace .requestReload rfl ⟨hnone, hnone⟩ hplain
  have hupdated := hraised.call spinWorkspace spinWorkspace .update rfl ⟨hnone, hnone⟩ hplain
  have hsame : spinWorkspace.readSource s.requestReload.path = .ok spinSource := (hp ▸ hread :)
  rw [hsame, ite_self] at hupdated
  have hagree : Agree s.requestReload s'.requestReload (.ok spinSource) := agree_of_twins hunforged hraised
  refine ⟨s.requestReload, s'.requestReload, ?_, hagree, agree_of_twins hunforged hupdated⟩
  refine hagree.spares spinWorkspace .update ?_ htyped ?_
  · simp [reads, requestReload, hserving]
  · exact (hp' ▸ hread :)

end Script

end HotReload
