import HotReload.Proofs.Registry.Entries
import HotReload.Proofs.Script.Roster
import HotReload.Proofs.Script.Sparing

/-! # A registry and its stage: scripts do not see each other

    Here the registry stands together with the stage that its scripts work on.  These
    scripts share a great deal: one compiler, in which a name of a type stands for
    whatever was compiled last, one counter for the numbers of instances, and one list of
    instances on each entity.  Besides, others make and remove instances on the same
    stage, which no script has noted down.

    None of this lets a call of one script reach another.  The invariant is that no
    number is noted down by two scripts; and a call, as the theory of `Script.Sparing`
    says, spares everything whose number its own script has not noted down. -/

namespace HotReload

/-! ## Section 1 - moves -/

/-- A registry, and the workspace with the stage that its scripts work on. -/
structure HostedRegistry where
  workspace : Workspace Stage
  registry : Registry

/-- What can happen to the two.  Polls and groups act on the registry by moves of these kinds alone. -/
inductive HostedRegistry.Move where
  /-- The files change, and watchers see it. -/
  | edit (files : Files) (touches : List Touch)
  /-- Others make use of the compiler, or offer modules to it. -/
  | lend (context : Context)
  /-- The next compile will take some time. -/
  | delay (lapse : Nat)
  /-- Somebody takes a script into use. -/
  | resolve (identity : String)
  /-- Somebody gives a script up. -/
  | release (identity : String)
  /-- Somebody asks for a reload of a script. -/
  | request (identity : String)
  /-- Somebody who has a script calls it. -/
  | call (key : Path) (c : Script.Call)
  /-- The events of one script are taken. -/
  | take (key : Path)
  /-- The events of all scripts are taken. -/
  | drain
  | spawn (name : String)
  /-- An entity comes that does not carry behaviours yet. -/
  | spawnBare (name : Option String)
  | despawn (e : Entity)
  | tick (dt : Float32)
  /-- The stage begins to follow the modules of the compiler. -/
  | share
  /-- Others make an instance of a type, which may be that of a script. -/
  | lodge (e : Entity) (type : BehaviourType)
  /-- Others remove an instance, which may be that of a script. -/
  | evict (r : InstanceRef)

namespace HostedRegistry

/-- The beginning, with an empty stage and without scripts. -/
def opened (w : Workspace Stage) (r : Registry) : HostedRegistry := ⟨{ w with host := {} }, { r with entries := [] }⟩

/-- The stage. -/
def stage (t : HostedRegistry) : Stage := t.workspace.host

/-- Changes the stage. -/
def withStage (t : HostedRegistry) (s : Stage) : HostedRegistry := { t with workspace := { t.workspace with host := s } }

/-- The instances of a script on an entity, in the order in which they run. -/
def instancesOf (t : HostedRegistry) (s : Script) (e : Entity) : List Instance :=
  t.stage.world.passing (fun id => id ∈ s.ids) e

/-- What a move leads to. -/
def step (t : HostedRegistry) : Move → HostedRegistry
  | .edit files touches =>
    ⟨{ t.workspace with files }, t.registry.notice files touches⟩
  | .lend context => { t with workspace := { t.workspace with context } }
  | .delay lapse => { t with workspace := { t.workspace with lapse } }
  | .resolve identity =>
    let (workspace, registry, _) := t.registry.resolve t.workspace identity
    ⟨workspace, registry⟩
  | .release identity => { t with registry := (t.registry.release t.workspace.files identity).1 }
  | .request identity => { t with registry := (t.registry.requestReload t.workspace.files identity).1 }
  | .call key c =>
    let (workspace, registry, _) :=
      t.registry.visit t.workspace key fun w s => ((s.call w c).1, (s.call w c).2, ())
    ⟨workspace, registry⟩
  | .take key =>
    let (workspace, registry, _) := t.registry.visit t.workspace key fun w s => (w, s.drainEvents)
    ⟨workspace, registry⟩
  | .drain => { t with registry := t.registry.drainEvents.1 }
  | .spawn name => t.withStage (t.stage.spawnNamed name).1
  | .spawnBare name => t.withStage (t.stage.spawnBare name).1
  | .despawn e => t.withStage (t.stage.despawn e).1
  | .tick dt => { t with workspace := t.workspace.tick dt }
  | .share => t.withStage (t.stage.follow t.workspace.context.modules)
  | .lodge e type => t.withStage (t.stage.addBehaviour t.workspace.context.modules e type).host
  | .evict r => t.withStage (t.stage.destroyBehaviour r).1

/-- Moves one after the other. -/
def run (t : HostedRegistry) (moves : List Move) : HostedRegistry := moves.foldl step t

/-- A call reaches the script of its key, if there is one. -/
theorem step_call_cases (t : HostedRegistry) (key : Path) (c : Script.Call) :
    (t.registry.script? key = none ∧ t.step (.call key c) = t) ∨
    ∃ s, t.registry.script? key = some s ∧ t.step (.call key c) =
      ⟨(s.call t.workspace c).1, t.registry.setScript key (s.call t.workspace c).2⟩ := by
  let f : Workspace Stage → Script → Workspace Stage × Script × Unit :=
    fun w s => ((s.call w c).1, (s.call w c).2, ())
  have hstep : t.step (.call key c) =
      ⟨(t.registry.visit t.workspace key f).1, (t.registry.visit t.workspace key f).2.1⟩ := rfl
  rw [hstep]
  rcases Registry.visit_cases t.workspace t.registry key f with ⟨hnone, heq⟩ | ⟨s, hs, heq⟩ <;> rw [heq]
  · exact .inl ⟨hnone, rfl⟩
  · exact .inr ⟨s, hs, rfl⟩

end HostedRegistry

/-! ## Section 2 - where numbers come from -/

/-- A stage that follows another: it is sound if the other was, and hands out later numbers. -/
structure Stage.Follows (s s' : Stage) : Prop where
  sound : s.world.Sound → s'.world.Sound
  later : s.nextInstance ≤ s'.nextInstance

namespace Stage.Follows

theorem refl (s : Stage) : s.Follows s := ⟨id, Nat.le_refl _⟩

theorem tick (s : Stage) (modules : ModuleSet) (dt : Float32) : s.Follows (s.tick modules dt).value where
  sound := by
    intro h
    rw [Stage.world_tick]
    exact h.mapBeings fun b => b.tick_entity _ dt
  later := Nat.le_of_eq (s.nextInstance_tick modules dt).symm

theorem follow (s : Stage) (modules : ModuleSet) : s.Follows (s.follow modules) where
  sound := by
    intro h
    rw [Stage.world_follow]
    exact h
  later := Nat.le_of_eq (s.nextInstance_follow modules).symm

theorem addBehaviour (s : Stage) (modules : ModuleSet) (e : Entity) (type : BehaviourType) :
    s.Follows (s.addBehaviour modules e type).host where
  sound := fun h => Stage.sound_addBehaviour h modules e type
  later := s.le_nextInstance_addBehaviour modules e type

theorem destroyBehaviour (s : Stage) (r : InstanceRef) : s.Follows (s.destroyBehaviour r).1 where
  sound := fun h => Stage.sound_destroyBehaviour h r
  later := Nat.le_of_eq (s.nextInstance_destroyBehaviour r).symm

end Stage.Follows

namespace Registry

theorem find?_setScript (r : Registry) (key : Path) (s : Script) (k : Path) :
    (r.setScript key s).find? k = (r.find? k).map fun e => if k.Same key then { e with script := s } else e :=
  find?_modify (by intro; rfl) k key

theorem script?_congr (r : Registry) {k key : Path} (h : k.Same key) : r.script? k = r.script? key := by
  unfold script?
  rw [find?_congr r h]

/-- From one registry to another, no script notes down a number. -/
def Inherits (r r' : Registry) : Prop :=
  ∀ k s', r'.script? k = some s' → ∀ id ∈ s'.ids, ∃ s, r.script? k = some s ∧ id ∈ s.ids

namespace Inherits
variable {r r' : Registry}

theorem refl (r : Registry) : r.Inherits r := fun _ s' hs' _ hid => ⟨s', hs', hid⟩

/-- It is enough that every entry is mapped to one with the same attachments. -/
theorem of_find? {f : Path → RegistryEntry → RegistryEntry} (hfind : ∀ k, r'.find? k = (r.find? k).map (f k))
    (hf : ∀ k e, (f k e).script.attachments = e.script.attachments) : r.Inherits r' := by
  intro k s' hs' id hid
  obtain ⟨e', he', rfl⟩ := script?_eq_some.1 hs'
  rw [hfind] at he'
  obtain ⟨e, he, rfl⟩ := Option.map_eq_some_iff.1 he'
  refine ⟨e.script, script?_eq_some.2 ⟨e, he, rfl⟩, ?_⟩
  unfold Script.ids at hid ⊢
  rwa [hf] at hid

/-- A script that is loaded has noted down nothing yet. -/
theorem resolve (w : Workspace Stage) (r : Registry) (identity : String) :
    r.Inherits (r.resolve w identity).2.1 := by
  unfold Registry.resolve
  dsimp only
  cases hfind : r.find? (r.keyOf w.files identity) with
  | some e =>
    refine of_find? (f := fun k e => if k.Same (r.keyOf w.files identity) then e.taken w else e) ?_ ?_
    · intro k
      exact find?_modify_of_find? (g := RegistryEntry.taken w) hfind (by intro; rfl) (by rfl) k
    · intro k e
      split
      · exact (Script.resume_fields w e.script).2.2.2.1
      · rfl
  | none =>
    dsimp only
    cases hload : Script.load w identity (r.keyOf w.files identity) r.options with
    | mk w' result =>
      cases result with
      | error error => exact refl r
      | ok s =>
        obtain ⟨-, hattachments, -⟩ := Script.load_fields (by rw [hload])
        intro k s' hs' id hid
        obtain ⟨e', he', rfl⟩ := script?_eq_some.1 hs'
        dsimp only at he'
        rw [find?_add] at he'
        rcases Option.or_eq_some_iff.1 he' with hold | ⟨-, hnew⟩
        · exact ⟨e'.script, script?_eq_some.2 ⟨e', hold, rfl⟩, hid⟩
        · split at hnew
          · cases hnew
            simp [Script.ids, hattachments] at hid
          · cases hnew

theorem release (r : Registry) (f : Files) (identity : String) : r.Inherits (r.release f identity).1 := by
  refine of_find? (find?_release r f identity) ?_
  intro k e
  split
  · unfold RegistryEntry.released
    split
    · rfl
    · exact (Script.discard_fields e.script).2.1
  · rfl

end Inherits

end Registry

/-! ## Section 3 - the invariant -/

namespace HostedRegistry

/-- No number is noted down by two scripts, and none before it is handed out. -/
structure Apart (t : HostedRegistry) : Prop where
  sound : t.stage.world.Sound
  below : ∀ k s, t.registry.script? k = some s → ∀ id ∈ s.ids, id < t.stage.nextInstance
  disjoint : ∀ k k' s s', ¬ k.Same k' → t.registry.script? k = some s → t.registry.script? k' = some s' →
    ∀ id ∈ s.ids, id ∉ s'.ids

theorem apart_opened (w : Workspace Stage) (r : Registry) : (opened w r).Apart where
  sound := World.sound_empty
  below := by
    intro k s hs
    cases hs
  disjoint := by
    intro k k' s s' _ hs
    cases hs

namespace Apart
variable {t t' : HostedRegistry}

/-- The scripts stay apart if all numbers that are noted down anew are later ones, and all by one script. -/
theorem grow (h : t.Apart) (hstage : t.stage.Follows t'.stage) (key : Path)
    (hids : ∀ k s', t'.registry.script? k = some s' → ∀ id ∈ s'.ids,
      (∃ s, t.registry.script? k = some s ∧ id ∈ s.ids) ∨
      (k.Same key ∧ t.stage.nextInstance ≤ id ∧ id < t'.stage.nextInstance)) : t'.Apart where
  sound := hstage.sound h.sound
  below := by
    intro k s' hs' id hid
    rcases hids k s' hs' id hid with ⟨s, hs, hold⟩ | ⟨-, -, hlt⟩
    · exact Nat.lt_of_lt_of_le (h.below k s hs id hold) hstage.later
    · exact hlt
  disjoint := by
    intro k k' s₁ s₂ hne hs₁ hs₂ id hid₁ hid₂
    rcases hids k s₁ hs₁ id hid₁ with ⟨s, hs, hold⟩ | ⟨hk, hle, -⟩ <;>
      rcases hids k' s₂ hs₂ id hid₂ with ⟨s', hs', hold'⟩ | ⟨hk', hle', -⟩
    · exact h.disjoint k k' s s' hne hs hs' id hold hold'
    · have hlt := h.below k s hs id hold
      omega
    · have hlt := h.below k' s' hs' id hold'
      omega
    · exact hne (hk.trans hk'.symm)

/-- They do so all the more if nothing is noted down. -/
theorem inherit (h : t.Apart) (hstage : t.stage.Follows t'.stage) (hids : t.registry.Inherits t'.registry) :
    t'.Apart :=
  h.grow hstage ⟨""⟩ fun k s' hs' id hid => .inl (hids k s' hs' id hid)

/-- A change of the stage alone. -/
theorem withStage (h : t.Apart) {s : Stage} (hs : t.stage.Follows s) : (t.withStage s).Apart := by
  have hstage : t.stage.Follows (t.withStage s).stage := hs
  exact h.inherit hstage (.refl _)

/-- How far a call has come when it begins. -/
theorem sparing (h : t.Apart) {key : Path} {s : Script} (hs : t.registry.script? key = some s) :
    Script.Sparing t.stage s.ids t.workspace s :=
  .start h.sound (h.below key s hs)

/-- A call grows what one script keeps, by instances that nobody else has. -/
theorem call (h : t.Apart) (key : Path) (c : Script.Call) : (t.step (.call key c)).Apart := by
  rcases t.step_call_cases key c with ⟨-, heq⟩ | ⟨s, hs, heq⟩
  · rw [heq]
    exact h
  · rw [heq]
    have hcall := (h.sparing hs).call c
    refine h.grow ⟨fun _ => hcall.sound, hcall.later⟩ key ?_
    intro k s' hs' id hid
    obtain ⟨e', he', rfl⟩ := Registry.script?_eq_some.1 hs'
    dsimp only at he'
    rw [Registry.find?_setScript] at he'
    obtain ⟨e, he, rfl⟩ := Option.map_eq_some_iff.1 he'
    by_cases hk : k.Same key
    · -- the script that is found is the one that has been called
      rw [if_pos hk] at hid
      rcases hcall.own id hid with hold | hnew
      · refine .inl ⟨s, ?_, hold⟩
        rw [Registry.script?_congr t.registry hk, hs]
      · exact .inr ⟨hk, hnew, hcall.below id hid⟩
    · rw [if_neg hk] at hid
      exact .inl ⟨e.script, Registry.script?_eq_some.2 ⟨e, he, rfl⟩, hid⟩

/-- Taking the events of a script touches neither the stage nor what the script keeps there. -/
theorem take (h : t.Apart) (key : Path) : (t.step (.take key)).Apart := by
  let f : Workspace Stage → Script → Workspace Stage × Script × List Event := fun w s => (w, s.drainEvents)
  have hhost : (t.registry.visit t.workspace key f).1 = t.workspace := by
    rcases Registry.visit_cases t.workspace t.registry key f with ⟨-, heq⟩ | ⟨s, -, heq⟩ <;> rw [heq]
  have hregistry : t.registry.Inherits (t.step (.take key)).registry := by
    refine .of_find? (Registry.find?_visit t.workspace t.registry key f) ?_
    intro k e
    split <;> rfl
  refine h.inherit ?_ hregistry
  show t.stage.Follows (t.registry.visit t.workspace key f).1.host
  rw [hhost]
  exact .refl _

/-- Every move keeps the scripts apart. -/
theorem step (h : t.Apart) (m : Move) : (t.step m).Apart := by
  cases m with
  | edit files touches =>
    refine h.inherit (.refl _) (.of_find? (Registry.find?_notice t.registry files touches) ?_)
    intro k e
    rcases Script.notice_cases e.script files touches with heq | ⟨-, heq⟩ <;> rw [heq]
    rfl
  | lend context => exact h.inherit (.refl _) (.refl _)
  | delay lapse => exact h.inherit (.refl _) (.refl _)
  | resolve identity =>
    have hhost := Registry.host_resolve t.workspace t.registry identity
    refine h.inherit ?_ (.resolve t.workspace t.registry identity)
    show t.stage.Follows (t.registry.resolve t.workspace identity).1.host
    rw [hhost]
    exact .refl _
  | release identity => exact h.inherit (.refl _) (.release t.registry t.workspace.files identity)
  | request identity =>
    refine h.inherit (.refl _) (.of_find?
      (Registry.find?_requestReload t.registry t.workspace.files identity) ?_)
    intro k e
    split <;> rfl
  | call key c => exact h.call key c
  | take key => exact h.take key
  | drain =>
    exact h.inherit (.refl _) (.of_find? (Registry.find?_drainEvents t.registry) fun k e => rfl)
  | spawn name => exact h.withStage ⟨fun hs => hs.spawn _ _, Nat.le_refl _⟩
  | spawnBare name => exact h.withStage ⟨fun hs => hs.spawn _ _, Nat.le_refl _⟩
  | despawn e => exact h.withStage ⟨fun hs => hs.despawn e, Nat.le_refl _⟩
  | tick dt => exact h.inherit (.tick t.stage t.workspace.context.modules dt) (.refl _)
  | share => exact h.withStage (.follow t.stage t.workspace.context.modules)
  | lodge e type => exact h.withStage (.addBehaviour t.stage t.workspace.context.modules e type)
  | evict r => exact h.withStage (.destroyBehaviour t.stage r)

theorem run (h : t.Apart) (moves : List Move) : (t.run moves).Apart := by
  induction moves generalizing t with
  | nil => exact h
  | cons m rest ih => exact ih (h.step m)

end Apart

/-! ## Section 4 - isolation -/

/-- From one state to another, nothing changes for any script but that of one key: its entry in the
    registry is just as it was, and its instances on every entity are as they were and in the same
    order. -/
structure SparesOthers (key : Path) (t t' : HostedRegistry) : Prop where
  entries : ∀ k, ¬ k.Same key → t'.registry.find? k = t.registry.find? k
  instances : ∀ k s, ¬ k.Same key → t'.registry.script? k = some s → ∀ e,
    t'.instancesOf s e = t.instancesOf s e

theorem Apart.sparesOthers {t : HostedRegistry} (h : t.Apart) (key : Path) (c : Script.Call) :
    t.SparesOthers key (t.step (.call key c)) := by
  rcases t.step_call_cases key c with ⟨-, heq⟩ | ⟨s, hs, heq⟩ <;> rw [heq]
  · exact ⟨fun _ _ => rfl, fun _ _ _ _ _ => rfl⟩
  · have hcall := (h.sparing hs).call c
    have hentries : ∀ k, ¬ k.Same key →
        (t.registry.setScript key (s.call t.workspace c).2).find? k = t.registry.find? k := by
      intro k hk
      rw [Registry.find?_setScript]
      cases t.registry.find? k with
      | none => rfl
      | some e => exact congrArg some (if_neg hk)
    refine ⟨hentries, ?_⟩
    intro k s' hk hs' e
    have hold : t.registry.script? k = some s' := by
      rw [← hs']
      exact congrArg (Option.map RegistryEntry.script) (hentries k hk).symm
    -- the numbers of the other script are none that the call may remove, nor any that it can make
    refine hcall.spared (fun id => id ∈ s'.ids) ?_ e
    intro id hid
    have hmem : id ∈ s'.ids := of_decide_eq_true hid
    exact ⟨h.below k s' hold id hmem, fun hown => h.disjoint k key s' s hk hold hs id hmem hown⟩

/-- Whatever has happened before, a call of one script, whatever comes of it, leaves all
    other scripts and their instances alone. -/
theorem calls_spare_others (w : Workspace Stage) (r : Registry) (moves : List Move) (key : Path)
    (c : Script.Call) :
    SparesOthers key ((opened w r).run moves) (((opened w r).run moves).step (.call key c)) :=
  ((apart_opened w r).run moves).sparesOthers key c

end HostedRegistry

end HotReload
