import HotReload.Proofs.HostedScripts.Retention
import HotReload.Proofs.Script.Exactness
import HotReload.Proofs.Script.Footing

/-! # A reload is as good as a restart

    A script that is reloaded, after whatever has happened to it, is compared with a
    script that is loaded from the same text, on a stage of its own or on the same one,
    and is then given the entities that the other one knew, one by one.

    The two come about by different paths.  The reload takes the old instances away,
    compiles, and gives the new type to its whole roster; the restart compiles and is
    called once for each entity.  But on a stage both are a row of requests, each of which
    is granted for the same reasons (`Stocked`), and the text decides the type
    (`Extracted.behaviour`) up to the number of its assembly. -/

namespace HotReload

/-! ## Section 1 - one text, two compilers -/

/-- Two types that differ in the number of their assembly, if at all. -/
structure BehaviourType.Alike (t t' : BehaviourType) : Prop where
  name : t'.name = t.name
  base : t'.base = t.base
  program : t'.program = t.program

namespace Context

theorem modules_bootstrap (c : Context) : c.bootstrap.1.modules = c.modules := by
  unfold bootstrap
  split <;> rfl

/-- Compiling a source does not change what the host offers. -/
theorem modules_extract (c : Context) (source : String) : (c.extract source).context.modules = c.modules := by
  rw [context_extract]
  exact c.modules_bootstrap

/-- Whatever is extracted has been reached by the reflection of the compiler. -/
theorem reflects_of_extract {c : Context} (h : c.bootstrap.1.compiler.Unforged) {source : String}
    {x : Extracted} (hx : (c.extract source).value = .ok x) :
    ¬ Rejects source (markerName c.nextMarker) ∧ c.bootstrap.1.compiler.Reflects := by
  have hmarker := isName_marker c.nextMarker
  rcases c.bootstrap.1.compiler.compile_cases (c.marked source) with
    ⟨report, hcompile⟩ | ⟨ds, types, report, hscan, hwell, hcompile, -⟩
  · rw [value_extract_of_failed hcompile] at hx
    cases hx
  · refine ⟨fun hrejects => (rejects_iff hmarker).1 hrejects ⟨ds, hscan, hwell⟩, ?_⟩
    have hvalue := c.compile_marked source hcompile
    unfold marked at hvalue
    unfold extract at hx
    dsimp only at hx
    rw [hvalue] at hx
    dsimp only [if_true] at hx
    rw [evaluate_compiled] at hx
    -- an extraction goes on from the marker only if its lookup has given a type
    cases hfound : ((c.bootstrap.1.compiler.emit types).evaluate (markerLookup (markerName c.nextMarker))).1 with
    | error reason =>
      rw [hfound] at hx
      cases hx
    | ok v =>
      cases v with
      | typeRef ref =>
        have hreflects : (c.bootstrap.1.compiler.emit types).Reflects :=
          Compiler.reflects_of_typeRef (c := c.bootstrap.1.compiler.emit types) h hmarker.part
            (toList_markerLookup _) hfound
        exact hreflects
      | _ =>
        rw [hfound] at hx
        cases hx

/-- What is extracted from a source is what its only declaration compiles to. -/
theorem compilesTo_of_extract {c : Context} (h : c.bootstrap.1.compiler.Unforged) {source : String}
    {x : Extracted} (hx : (c.extract source).value = .ok x) :
    ∃ d, scan source = .ok [d] ∧ CompilesTo x.behaviour.assembly d x.behaviour := by
  obtain ⟨hnot, hreflects⟩ := reflects_of_extract h hx
  obtain ⟨ds, types, assembly, report, hemits⟩ := emits_of_not_rejects hreflects hnot
  have hyields := hemits.yields
  rw [hx] at hyields
  match ds with
  | [] => cases hyields
  | [d] =>
    obtain ⟨t, report', heq, -, ht⟩ := hyields
    cases heq
    exact ⟨d, hemits.scanned, ht.name, ht.base, rfl, ht.program⟩
  | _ :: _ :: _ => cases hyields

/-- So two compilers find the same in it, whatever they have compiled before. -/
theorem extract_alike {c c' : Context} (h : c.bootstrap.1.compiler.Unforged)
    (h' : c'.bootstrap.1.compiler.Unforged) {source : String} {x x' : Extracted}
    (hx : (c.extract source).value = .ok x) (hx' : (c'.extract source).value = .ok x') :
    x.behaviour.Alike x'.behaviour := by
  obtain ⟨d, hscan, ht⟩ := compilesTo_of_extract h hx
  obtain ⟨d', hscan', ht'⟩ := compilesTo_of_extract h' hx'
  rw [hscan] at hscan'
  cases hscan'
  have hprogram := ht'.program
  rw [ht.program] at hprogram
  exact ⟨ht'.name.trans ht.name.symm, ht'.base.trans ht.base.symm, (Except.ok.inj hprogram).symm⟩

end Context

/-! ## Section 2 - requests for one type -/

/-- Whether the stage grants an instance of a type on an entity, told from who is alive and from the engine. -/
def BehaviourType.granted (alive : Entity → Bool) (engine : Engine) (t : BehaviourType) (e : Entity) : Bool :=
  alive e && (t.program.instantiate engine).result.isOk

theorem BehaviourType.Alike.granted_eq {t t' : BehaviourType} (h : t.Alike t') (alive : Entity → Bool)
    (engine : Engine) (e : Entity) : t'.granted alive engine e = t.granted alive engine e := by
  unfold BehaviourType.granted
  rw [h.program]

namespace Script

/-- A script whose instances are all of a type and have just been made, on a stage with the given entities
    and the given engine. -/
structure Stocked (alive : Entity → Bool) (engine : Engine) (t : BehaviourType) (w : Workspace Stage)
    (s : Script) : Prop where
  sound : w.host.world.Sound
  contains : ∀ e, w.host.world.contains e = alive e
  runs : (w.host.sync w.context.modules).engine = engine
  fresh : ∀ a ∈ s.attachments, ∃ i ∈ w.host.world.instancesOn a.entity, i.id = a.ref.id ∧ i.type = t ∧
    (t.program.instantiate engine).result = .ok i.self ∧ i.ready = false

namespace Stocked
variable {alive : Entity → Bool} {engine : Engine} {t : BehaviourType} {w w' : Workspace Stage} {s s' : Script}

/-- What matters is the stage, the modules that it follows, and the attachments. -/
theorem congr (h : Stocked alive engine t w s) (hhost : w'.host = w.host)
    (hmodules : w'.context.modules = w.context.modules) (ha : s'.attachments = s.attachments) :
    Stocked alive engine t w' s' where
  sound := by rw [hhost]; exact h.sound
  contains := by rw [hhost]; exact h.contains
  runs := by rw [hhost, hmodules]; exact h.runs
  fresh := by rw [hhost, ha]; exact h.fresh

theorem say (h : Stocked alive engine t w s) (line : LogLine) : Stocked alive engine t (w.say line) s :=
  h.congr rfl rfl rfl

/-- A request is granted or refused, and leaves all instances as they are. -/
theorem addBehaviour (h : Stocked alive engine t w s) (e : Entity) :
    (t.granted alive engine e = false ∧ ∃ error, (w.addBehaviour e t).2 = .error error ∧
      Stocked alive engine t (w.addBehaviour e t).1 s) ∨
    (t.granted alive engine e = true ∧ ∃ ref, (w.addBehaviour e t).2 = .ok ref ∧
      Stocked alive engine t (w.addBehaviour e t).1 (s.link e ref)) := by
  have hhost : (w.addBehaviour e t).1.host = (w.host.addBehaviour w.context.modules e t).host := rfl
  have hresult : (w.addBehaviour e t).2 = (w.host.addBehaviour w.context.modules e t).result := rfl
  -- who is alive and what the statements may call stays the same
  have hsound : (w.addBehaviour e t).1.host.world.Sound := Stage.sound_addBehaviour h.sound _ e t
  have halive : ∀ e', (w.addBehaviour e t).1.host.world.contains e' = alive e' := by
    intro e'
    rw [← h.contains e']
    exact Stage.contains_addBehaviour h.sound _ e t e'
  have hengine : ((w.addBehaviour e t).1.host.sync (w.addBehaviour e t).1.context.modules).engine = engine := by
    rw [← h.runs]
    exact Stage.engine_addBehaviour w.host w.context.modules e t
  rcases w.host.addBehaviour_cases w.context.modules e t with ⟨hc, heq⟩ | ⟨hc, fault, printed, hr, heq⟩ |
    ⟨hc, fields, printed, hr, heq⟩ <;> rw [heq] at hhost hresult <;> rw [h.contains] at hc
  · refine .inl ⟨?_, _, hresult, hsound, halive, hengine, ?_⟩
    · rw [BehaviourType.granted, hc, Bool.false_and]
    · rw [hhost]
      exact h.fresh
  · rw [h.runs] at hr
    refine .inl ⟨?_, _, hresult, hsound, halive, hengine, ?_⟩
    · rw [BehaviourType.granted, hr, Bool.and_comm]
      rfl
    · rw [hhost, Stage.world_sync]
      exact h.fresh
  · rw [h.runs] at hr
    refine .inr ⟨?_, _, hresult, hsound, halive, hengine, ?_⟩
    · rw [BehaviourType.granted, hc, hr]
      rfl
    · have hcontains : w.host.world.contains e = true := (h.contains e).trans hc
      intro a ha
      rw [hhost]
      show ∃ i ∈ (w.host.world.addInstance e ⟨w.host.nextInstance, t, fields, false⟩).instancesOn a.entity, _
      rw [World.instancesOn_addInstance h.sound hcontains]
      rcases List.mem_append.1 ha with hold | hnew
      · obtain ⟨i, hi, hfacts⟩ := h.fresh a hold
        refine ⟨i, ?_, hfacts⟩
        split
        · exact List.mem_append_left _ hi
        · exact hi
      · rw [List.mem_singleton.1 hnew, if_pos rfl]
        exact ⟨_, List.mem_append_right _ List.mem_cons_self, rfl, rfl, hr, rfl⟩

/-- What a reload gives its roster. -/
theorem readd (h : Stocked alive engine t w s) (es : List Entity) :
    Stocked alive engine t (readd w s t es).1 (readd w s t es).2 ∧
      (readd w s t es).2.attached = s.attached ++ es.filter (t.granted alive engine) := by
  induction es generalizing w s with
  | nil => exact ⟨h, (List.append_nil _).symm⟩
  | cons e es ih =>
    rcases h.addBehaviour e with ⟨hgranted, error, hr, hadd⟩ | ⟨hgranted, ref, hr, hadd⟩
    · obtain ⟨line, heq⟩ := readd_cons_of_error hr s es
      rw [heq, List.filter_cons_of_neg (Bool.eq_false_iff.1 hgranted)]
      exact ih (hadd.say line)
    · obtain ⟨hstocked, hattached⟩ := ih hadd
      rw [readd_cons_of_ok hr]
      refine ⟨hstocked, ?_⟩
      rw [List.filter_cons_of_pos hgranted, hattached, attached_link, List.append_assoc]
      rfl

/-- What the calls of a restart give to the same entities. -/
theorem attachEach (h : Stocked alive engine t w s) (hc : s.compiled = some t) {es : List Entity}
    (hnd : es.Nodup) (hfresh : ∀ e ∈ es, e ∉ s.attached) :
    Stocked alive engine t (attachEach w s es).1 (attachEach w s es).2.1 ∧
      (attachEach w s es).2.1.attached = s.attached ++ es.filter (t.granted alive engine) := by
  induction es generalizing w s with
  | nil => exact ⟨h, (List.append_nil _).symm⟩
  | cons e es ih =>
    obtain ⟨he, hes⟩ := List.nodup_cons.1 hnd
    have hnew : e ∉ s.attached := hfresh e List.mem_cons_self
    have hrest : ∀ e' ∈ es, e' ∉ s.attached := fun e' hmem => hfresh e' (List.mem_cons_of_mem e hmem)
    show Stocked alive engine t (Script.attachEach (attach w s e).1 (attach w s e).2.1 es).1
      (Script.attachEach (attach w s e).1 (attach w s e).2.1 es).2.1 ∧
      (Script.attachEach (attach w s e).1 (attach w s e).2.1 es).2.1.attached = _
    rcases attach_cases w s e with ⟨hold, -⟩ | ⟨-, hnone, -⟩ | ⟨-, t', ref, hc', hr, heq⟩ |
      ⟨-, t', error, line, hc', hr, heq⟩
    · exact absurd hold hnew
    · rw [hc] at hnone
      cases hnone
    · rw [hc] at hc'
      cases hc'
      rcases h.addBehaviour e with ⟨-, error, hr', -⟩ | ⟨hgranted, ref', hr', hadd⟩ <;> rw [hr'] at hr <;>
        cases hr
      rw [heq]
      have hlinked : ∀ e' ∈ es, e' ∉ ((s.link e ref).push (.attached s.identity e)).attached := by
        intro e' hmem
        rw [attached_push, attached_link, List.mem_append, List.mem_singleton, not_or]
        exact ⟨hrest e' hmem, fun heq => he (heq ▸ hmem)⟩
      have hpushed : Stocked alive engine t (w.addBehaviour e t).1
          ((s.link e ref).push (.attached s.identity e)) := hadd.congr rfl rfl rfl
      obtain ⟨hstocked, hattached⟩ := ih hpushed hc hes hlinked
      refine ⟨hstocked, ?_⟩
      rw [List.filter_cons_of_pos hgranted, hattached, attached_push, attached_link, List.append_assoc]
      rfl
    · rw [hc] at hc'
      cases hc'
      rcases h.addBehaviour e with ⟨hgranted, error', hr', hadd⟩ | ⟨-, ref, hr', -⟩ <;> rw [hr'] at hr <;>
        cases hr
      rw [heq, List.filter_cons_of_neg (Bool.eq_false_iff.1 hgranted)]
      exact ih (hadd.say line) hc hes hrest

end Stocked

/-- A script that has just been given a type and, one after the other, some entities, of which it has kept those
    that the stage accepts. -/
structure Renewed (alive : Entity → Bool) (engine : Engine) (t : BehaviourType) (text : String)
    (es : List Entity) (w : Workspace Stage) (s : Script) : Prop where
  stocked : Stocked alive engine t w s
  code : s.code = (some t, some text)
  attached : s.attached = es.filter (t.granted alive engine)

/-! ## Section 3 - reloading -/

section reloading
variable {w : Workspace Stage} {s : Script} {text : String} {x : Extracted}

theorem prepare_of_extract (hread : w.readSource s.path = .ok text)
    (hchanged : s.isUnchanged (w.readSource s.path) = false) (hx : (w.extract text).2 = .ok x) :
    s.prepare w = .compiled ((strip w s).1.extract text).1 x.behaviour text := by
  rw [hread] at hchanged
  have hextract : ((strip w s).1.extract text).2 = .ok x :=
    (Workspace.extract_congr (strip_fields w s).2 text).trans hx
  unfold prepare prepareFrom
  rw [hread, if_neg (Bool.eq_false_iff.1 hchanged)]
  dsimp only
  cases hresult : (strip w s).1.extract text with
  | mk w₁ result =>
    rw [hresult] at hextract
    cases hextract
    rfl

/-- Once the instances are gone, the stage is as before but for them. -/
theorem stocked_strip (hsound : w.host.world.Sound) (t : BehaviourType) {s' : Script}
    (ha : s'.attachments = []) : Stocked w.host.world.contains (w.host.sync w.context.modules).engine t
      ((strip w s).1.extract text).1 s' := by
  have hhost : ((strip w s).1.extract text).1.host = (strip w s).1.host := rfl
  have hmodules : ((strip w s).1.extract text).1.context.modules = w.context.modules := by
    rw [← (strip_fields w s).2]
    exact Context.modules_extract _ text
  constructor
  · exact ((Stage.lasting_contains default).strip ⟨hsound, rfl⟩ s).1
  · exact fun e => ((Stage.lasting_contains e).strip ⟨hsound, rfl⟩ s).2
  · obtain ⟨world, hstrip⟩ := host_strip w s
    rw [hhost, hmodules, hstrip]
    unfold Stage.sync
    split <;> rfl
  · rw [ha]
    exact fun a hmem => absurd hmem List.not_mem_nil

/-- What a reload comes to, if there is something to do and the text extracts. -/
theorem renewed_recompile (hsound : w.host.world.Sound) (hread : w.readSource s.path = .ok text)
    (hchanged : s.isUnchanged (w.readSource s.path) = false) (hx : (w.extract text).2 = .ok x) :
    Renewed w.host.world.contains (w.host.sync w.context.modules).engine x.behaviour text s.roster
      (recompile w s).1 (recompile w s).2.1 := by
  let begun : Script := { (strip w s).2 with
    generation := s.generation + 1, compiled := some x.behaviour, source := some text }
  have hbegun : Stocked w.host.world.contains (w.host.sync w.context.modules).engine x.behaviour
      ((strip w s).1.extract text).1 begun := stocked_strip hsound x.behaviour rfl
  obtain ⟨hstocked, hattached⟩ := hbegun.readd s.roster
  have hcode := (readd_frame ((strip w s).1.extract text).1 begun x.behaviour s.roster).code
  rw [recompile_eq, prepare_of_extract hread hchanged hx]
  exact ⟨hstocked.congr rfl rfl rfl, hcode, hattached⟩

/-- A call that reloads is a recompile, of a script whose signal may have been taken before. -/
theorem call_of_reloads {c : Call} (h : s.reloads w c = true) :
    ∃ s₀ : Script, s₀.roster = s.roster ∧ s₀.path = s.path ∧ s₀.isUnchanged (w.readSource s₀.path) = false ∧
      s.call w c = ((recompile w s₀).1, (recompile w s₀).2.1) := by
  cases c with
  | recompile => exact ⟨s, rfl, rfl, by simpa [reloads] using h, rfl⟩
  | update =>
    simp only [reloads, Bool.and_eq_true, Bool.not_eq_true'] at h
    obtain ⟨⟨hserving, hraised⟩, hchanged⟩ := h
    refine ⟨s.answered, rfl, rfl, hchanged, ?_⟩
    rcases update_cases w s with ⟨-, -, heq⟩ | ⟨hidle, -⟩
    · show ((update w s).1, (update w s).2.1) = _
      rw [heq]
    · rcases hidle with hd | hr
      · rw [hserving] at hd
        cases hd
      · rw [hraised] at hr
        cases hr
  | _ => cases h

end reloading

/-! ## Section 4 - loading -/

section loading
variable {w w' : Workspace Stage} {s : Script} {identity : String} {p : Path} {options : ScriptOptions}

/-- Loading does not change what the host offers. -/
theorem modules_load (w : Workspace Stage) (identity : String) (p : Path) (options : ScriptOptions) :
    (load w identity p options).1.context.modules = w.context.modules := by
  have hsource : ∀ source, (ofSource w identity p options source).1.context.modules = w.context.modules := by
    intro source
    unfold ofSource
    have hmodules : (w.extract source).1.context.modules = w.context.modules :=
      w.context.modules_extract source
    split <;> next hx => rw [hx] at hmodules; exact hmodules
  unfold load
  split
  · rfl
  · next source _ =>
    have hmodules := hsource source
    split
    · next hs => rw [hs] at hmodules; exact hmodules
    · next w' script hs =>
      rw [hs] at hmodules
      rcases startWatch_cases w' script with heq | ⟨watch, heq⟩ | ⟨line, heq⟩ <;> rw [heq] <;> exact hmodules

/-- What a script comes to that is loaded and then attached to some entities. -/
theorem renewed_attachEach (hload : load w identity p options = (w', .ok s)) (hsound : w.host.world.Sound)
    {text : String} (hread : w.readSource p = .ok text) {x : Extracted} (hx : (w.extract text).2 = .ok x)
    {es : List Entity} (hnd : es.Nodup) :
    Renewed w.host.world.contains (w.host.sync w.context.modules).engine x.behaviour text es
      (attachEach w' s es).1 (attachEach w' s es).2.1 := by
  obtain ⟨text', x', hread', hx', hcode, -, -⟩ := load_ok hload
  obtain rfl : text = text' := Except.ok.inj (hread.symm.trans hread')
  obtain rfl : x = x' := Except.ok.inj (hx.symm.trans hx')
  obtain ⟨-, ha, -⟩ := load_fields (congrArg Prod.snd hload)
  have hnobody : s.attached = [] := congrArg (List.map Attachment.entity) ha
  -- a load leaves the stage alone, and has no instances yet
  have hhost : w'.host = w.host := by
    rw [← host_load w identity p options, hload]
  have hmodules : w'.context.modules = w.context.modules := by
    rw [← modules_load w identity p options, hload]
  have hloaded : Stocked w.host.world.contains (w.host.sync w.context.modules).engine x.behaviour w' s := by
    refine ⟨?_, ?_, ?_, ?_⟩
    · rw [hhost]
      exact hsound
    · rw [hhost]
      exact fun e => rfl
    · rw [hhost, hmodules]
    · rw [ha]
      exact fun a hmem => absurd hmem List.not_mem_nil
  have htype : s.compiled = some x.behaviour := congrArg Prod.fst hcode
  have hnew : ∀ e ∈ es, e ∉ s.attached := by
    intro e _
    rw [hnobody]
    exact List.not_mem_nil
  obtain ⟨hstocked, hattached⟩ := hloaded.attachEach htype hnd hnew
  rw [hnobody, List.nil_append] at hattached
  exact ⟨hstocked, (attachEach_frame w' s es).code.trans hcode, hattached⟩

end loading

end Script

/-! ## Section 5 - the main theorem -/

namespace HostedScripts

/-- Calls that attach entities to one script, one after the other. -/
theorem run_attaches {c : HostedScripts} {k : Nat} {s : Script} (hk : c.scripts[k]? = some s) (es : List Entity) :
    c.run (es.map fun e => .call k (.attach e)) =
      ⟨(Script.attachEach c.workspace s es).1, c.scripts.set k (Script.attachEach c.workspace s es).2.1⟩ := by
  induction es generalizing c s with
  | nil =>
    obtain ⟨hlt, rfl⟩ := List.getElem?_eq_some_iff.1 hk
    show c = ⟨c.workspace, c.scripts.set k c.scripts[k]⟩
    rw [List.set_getElem_self]
  | cons e es ih =>
    obtain ⟨hlt, -⟩ := List.getElem?_eq_some_iff.1 hk
    rw [List.map_cons, run_cons, step_call_of_some hk, ih (List.getElem?_set_self hlt), List.set_set]
    rfl

/-- Two states in which a text can be expected to come to the same for some entities: it extracts in both,
    the statements of a type may call the same, and the same entities are alive. -/
structure SameGround (c c' : HostedScripts) (text : String) (es : List Entity) : Prop where
  extracts : ∃ x, (c.workspace.extract text).2 = .ok x
  extracts' : ∃ x, (c'.workspace.extract text).2 = .ok x
  /-- Types come from the compiler alone, and not from a module that passes itself off as its reflection. -/
  unforged : c.workspace.context.bootstrap.1.compiler.Unforged
  unforged' : c'.workspace.context.bootstrap.1.compiler.Unforged
  engine : (c'.stage.sync c'.workspace.context.modules).engine = (c.stage.sync c.workspace.context.modules).engine
  alive : ∀ e ∈ es, c'.alive e = c.alive e

/-- Two scripts, each on its stage, that differ in numbers only: they have alike types from one text,
    are attached to the same entities in the same order, and have on each of them one instance, with the
    same fields, which has not had its first tick. -/
structure SameResult (c : HostedScripts) (s : Script) (c' : HostedScripts) (s' : Script) : Prop where
  type : ∃ t t', s.compiled = some t ∧ s'.compiled = some t' ∧ t.Alike t'
  source : s'.source = s.source
  attached : s'.attached = s.attached
  suspended : s.suspended = [] ∧ s'.suspended = []
  instances : ∀ e ∈ s.attached, ∃ i i', c.ownedOn s e = [i] ∧ c'.ownedOn s' e = [i'] ∧
    s.compiled = some i.type ∧ s'.compiled = some i'.type ∧ i'.self = i.self ∧
    i.ready = false ∧ i'.ready = false

/-- What two scripts have in common that come to alike types of one text, and to the same entities. -/
theorem sameResult_of_renewed {c c' : HostedScripts} (hc : c.Linked) (hc' : c'.Linked) {s s' : Script}
    (hs : s ∈ c.scripts) (hs' : s' ∈ c'.scripts) {alive alive' : Entity → Bool} {engine : Engine}
    {t t' : BehaviourType} {text : String} {es : List Entity}
    (h : Script.Renewed alive engine t text es c.workspace s)
    (h' : Script.Renewed alive' engine t' text es c'.workspace s')
    (halike : t.Alike t') (halive : ∀ e ∈ es, alive' e = alive e) : SameResult c s c' s' := by
  have htype : s.compiled = some t := congrArg Prod.fst h.code
  have htype' : s'.compiled = some t' := congrArg Prod.fst h'.code
  have hattached : s'.attached = s.attached := by
    rw [h.attached, h'.attached]
    refine List.filter_congr fun e he => ?_
    rw [halike.granted_eq, BehaviourType.granted, halive e he]
    rfl
  have hsuspended : s.suspended = [] := (hc.settled s hs).attached (by rw [htype]; rfl)
  have hsuspended' : s'.suspended = [] := (hc'.settled s' hs').attached (by rw [htype']; rfl)
  refine ⟨⟨t, t', htype, htype', halike⟩, ?_, hattached, ⟨hsuspended, hsuspended'⟩, ?_⟩
  · exact (congrArg Prod.snd h'.code).trans (congrArg Prod.snd h.code).symm
  · intro e he
    obtain ⟨a, ha, hae⟩ := List.mem_map.1 he
    obtain ⟨b, hb, hbe⟩ := List.mem_map.1 (hattached ▸ he : e ∈ s'.attached)
    obtain ⟨i, hi, hid, hit, hself, hready⟩ := h.stocked.fresh a ha
    obtain ⟨i', hi', hid', hit', hself', hready'⟩ := h'.stocked.fresh b hb
    -- the statements of the two types are the same, and run with the same engine
    have hsame : i'.self = i.self := by
      rw [halike.program, hself] at hself'
      exact (Except.ok.inj hself').symm
    refine ⟨i, i', ?_, ?_, hit ▸ htype, hit' ▸ htype', hsame, hready, hready'⟩
    · rw [← hae]
      exact hc.ownedOn_eq_singleton hs ha hi hid
    · rw [← hbe]
      exact hc'.ownedOn_eq_singleton hs' hb hi' hid'

/-- What stands for a reload if a script is loaded in the place of it, and given some entities: a load,
    which makes the last script of the list, and a call for each entity. -/
def restart (c : HostedScripts) (identity : String) (p : Path) (options : ScriptOptions) (es : List Entity) :
    List Action :=
  .load identity p options :: es.map fun e => .call c.scripts.length (.attach e)

/-- Where a restart leads to. -/
theorem run_restart {c : HostedScripts} (hsound : c.stage.world.Sound) (identity : String) {p : Path}
    (options : ScriptOptions) {text : String} {x : Extracted} (hread : c.workspace.readSource p = .ok text)
    (hx : (c.workspace.extract text).2 = .ok x) {es : List Entity} (hnd : es.Nodup) :
    ∃ s, (c.run (c.restart identity p options es)).scripts[c.scripts.length]? = some s ∧
      Script.Renewed c.stage.world.contains (c.stage.sync c.workspace.context.modules).engine x.behaviour text es
        (c.run (c.restart identity p options es)).workspace s := by
  obtain ⟨w, s, hload⟩ := Script.load_of_extract hread hx identity options
  have hlast : (⟨w, c.scripts ++ [s]⟩ : HostedScripts).scripts[c.scripts.length]? = some s :=
    List.getElem?_concat_length
  have hrenewed := Script.renewed_attachEach hload hsound hread hx hnd
  rw [restart, run_cons, step_load_of_ok hload, run_attaches hlast]
  refine ⟨_, ?_, hrenewed⟩
  obtain ⟨hlt, -⟩ := List.getElem?_eq_some_iff.1 hlast
  exact List.getElem?_set_self hlt

/-- Where a reload leads to. -/
theorem step_reload {c : HostedScripts} (hsound : c.stage.world.Sound) {k : Nat} {s : Script}
    (hk : c.scripts[k]? = some s) {called : Script.Call} (hreload : s.reloads c.workspace called = true)
    {text : String} {x : Extracted} (hread : c.workspace.readSource s.path = .ok text)
    (hx : (c.workspace.extract text).2 = .ok x) :
    ∃ s', (c.step (.call k called)).scripts[k]? = some s' ∧
      Script.Renewed c.stage.world.contains (c.stage.sync c.workspace.context.modules).engine x.behaviour text
        s.roster (c.step (.call k called)).workspace s' := by
  obtain ⟨s₀, hroster, hpath, hchanged, hcall⟩ := Script.call_of_reloads hreload
  rw [← hpath] at hread
  have hrenewed := Script.renewed_recompile hsound hread hchanged hx
  obtain ⟨hlt, -⟩ := List.getElem?_eq_some_iff.1 hk
  rw [step_call_of_some hk, hcall, ← hroster]
  exact ⟨_, List.getElem?_set_self hlt, hrenewed⟩

/-- A reload that has something to do, of a text that extracts, comes to the same as a restart: a script that is
    loaded from this text and is then attached, one by one, to the entities that the reloaded one knew before,
    those that were attached and those that were suspended.  The restart may take place in any state,
    also in the one of the reload, if it offers the same ground. -/
theorem reload_eq_restart (w w' : Workspace Stage) (before before' : List Action) (k : Nat) (s : Script)
    (called : Script.Call) (text : String) (identity : String) (p : Path) (options : ScriptOptions)
    (hk : ((fresh w).run before).scripts[k]? = some s)
    (hreload : s.reloads ((fresh w).run before).workspace called = true)
    (hread : ((fresh w).run before).workspace.readSource s.path = .ok text)
    (hread' : ((fresh w').run before').workspace.readSource p = .ok text)
    (hground : SameGround ((fresh w).run before) ((fresh w').run before') text s.roster) :
    ∃ s₁ s₂,
      ((fresh w).run (before ++ [.call k called])).scripts[k]? = some s₁ ∧
      ((fresh w').run (before' ++ ((fresh w').run before').restart identity p options s.roster)).scripts[
        ((fresh w').run before').scripts.length]? = some s₂ ∧
      SameResult ((fresh w).run (before ++ [.call k called])) s₁
        ((fresh w').run (before' ++ ((fresh w').run before').restart identity p options s.roster)) s₂ := by
  have hc : ((fresh w).run before).Linked := (linked_fresh w).run before
  have hc' : ((fresh w').run before').Linked := (linked_fresh w').run before'
  obtain ⟨x, hx⟩ := hground.extracts
  obtain ⟨x', hx'⟩ := hground.extracts'
  have hnd : s.roster.Nodup := (hc.settled s (List.mem_of_getElem? hk)).nodup
  obtain ⟨s₁, hs₁, h₁⟩ := step_reload hc.matched.sound hk hreload hread hx
  obtain ⟨s₂, hs₂, h₂⟩ := run_restart hc'.matched.sound identity options hread' hx' hnd
  rw [hground.engine] at h₂
  rw [run_append, run_append]
  refine ⟨s₁, s₂, hs₁, hs₂, ?_⟩
  exact sameResult_of_renewed (hc.step _) (hc'.run _) (List.mem_of_getElem? hs₁) (List.mem_of_getElem? hs₂) h₁ h₂
    (Context.extract_alike hground.unforged hground.unforged' hx hx') hground.alive

/-! ### A source that is given a member -/

def memberSource : String := "class Spin { let x = 1; }"

/-- What leads to a script with one entity, and what then happens to its source. -/
def editedActions : List Action :=
  spinActions ++ [.edit { entries := [(["spin"], .file memberSource.toUTF8)] }]

/-- What they lead to. -/
def editedHosted : HostedScripts := spinHosted.step (.edit { entries := [(["spin"], .file memberSource.toUTF8)] })

theorem run_edited : (fresh Script.spinWorkspace).run editedActions = editedHosted := by
  rw [editedActions, run_append, run_spin]
  rfl

/-- The script is recompiled, or else it is loaded once more under another name. -/
theorem restart_beside_edited : ∃ s₁ s₂,
    (editedHosted.step (.call 0 .recompile)).scripts[0]? = some s₁ ∧ s₁.attached = [⟨0, 1⟩] ∧
    (editedHosted.run (editedHosted.restart "twin" ⟨"/spin"⟩ {} [⟨0, 1⟩])).scripts[1]? = some s₂ ∧
    SameResult (editedHosted.step (.call 0 .recompile)) s₁
      (editedHosted.run (editedHosted.restart "twin" ⟨"/spin"⟩ {} [⟨0, 1⟩])) s₂ := by
  have hk : editedHosted.scripts[0]? = some spinAttached := rfl
  have hroster : spinAttached.roster = [⟨0, 1⟩] := by decide +kernel
  have hread : editedHosted.workspace.readSource ⟨"/spin"⟩ = .ok memberSource := by
    have hfiles : editedHosted.workspace.files.readText ⟨"/spin"⟩ = .ok memberSource :=
      Script.readText_spin rfl
    rw [Workspace.readSource, hfiles]
  have hreload : spinAttached.reloads editedHosted.workspace .recompile = true := by
    rw [Script.reloads, path_spinAttached, hread]
    decide +kernel
  have hextracts : ∃ x, (editedHosted.workspace.extract memberSource).2 = .ok x :=
    ⟨_, eq_ok_of_isOk (by decide +kernel)⟩
  -- there are no modules at all in this state
  have hunforged : editedHosted.workspace.context.bootstrap.1.compiler.Unforged := by
    intro m hm
    have hnone : editedHosted.workspace.context.bootstrap.1.compiler.modules.length = 0 := by decide +kernel
    rw [List.length_eq_zero_iff.1 hnone] at hm
    cases hm
  have hground : SameGround editedHosted editedHosted memberSource spinAttached.roster :=
    ⟨hextracts, hextracts, hunforged, hunforged, rfl, fun _ _ => rfl⟩
  have hrun := reload_eq_restart Script.spinWorkspace Script.spinWorkspace editedActions editedActions 0
    spinAttached .recompile memberSource "twin" ⟨"/spin"⟩ {} (by rwa [run_edited]) (by rwa [run_edited])
    (by rwa [run_edited, path_spinAttached]) (by rwa [run_edited]) (by rwa [run_edited])
  rw [run_append, run_append, run_edited, hroster] at hrun
  obtain ⟨s₁, s₂, hs₁, hs₂, hsame⟩ := hrun
  have hcalled : s₁ = (Script.recompile editedHosted.workspace spinAttached).2.1 :=
    Option.some.inj (hs₁.symm.trans rfl)
  refine ⟨s₁, s₂, hs₁, ?_, hs₂, hsame⟩
  rw [hcalled, Script.recompile, path_spinAttached, hread]
  decide +kernel

end HostedScripts

end HotReload
