import HotReload.Proofs.App.Respawn
import HotReload.Proofs.Registry.Oblivion

/-! # Apps leave nothing dangling

    In an app every entity has its group, and what there is to do about the scripts of
    an entity is read off the group.  That an entity is forgotten when it is removed thus
    depends on the converse: whoever is in the roster of a script must have a group, and
    the script must be in it.

    This is what the invariant `Tidy` says, by means of the theory of rosters in a
    registry: the cover that the scripts keep to is given by the groups.  Instances are
    noted down by scripts, as the theory of `HostedScripts` says, so nothing else has to be said
    about the stage. -/

namespace HotReload

/-! ## Section 1 - who is gone for good -/

namespace Stage
variable {s s' : Stage} {e : Entity}

/-- An entity was there once and is dead.  No entity gets its number again. -/
def Gone (s : Stage) (e : Entity) : Prop := s.world.Issued e ∧ s.world.contains e = false

theorem SamePeople.gone (h : s.SamePeople s') (he : s.Gone e) : s'.Gone e :=
  ⟨h.issued e he.1, (h.alive e).trans he.2⟩

theorem samePeople_tick (h : s.world.Sound) (modules : ModuleSet) (dt : Float32) :
    s.SamePeople (s.tick modules dt).value := by
  have hworld := s.world_tick modules dt
  refine ⟨?_, fun e => ?_, fun e he => ?_⟩ <;> rw [hworld]
  · exact h.mapBeings fun b => b.tick_entity _ dt
  · exact World.contains_mapBeings (fun b => b.tick_entity _ dt) e
  · exact he

theorem sound_spawnNamed (h : s.world.Sound) (name : String) : (s.spawnNamed name).1.world.Sound :=
  World.Sound.spawn (some name) (some []) h

theorem contains_spawnNamed (h : s.world.Sound) (name : String) (e : Entity) :
    (s.spawnNamed name).1.world.contains e = (decide (e = (s.spawnNamed name).2) || s.world.contains e) :=
  World.contains_spawn h _ _ e

/-- The entity that comes is none of those that were there before. -/
theorem not_issued_spawnNamed (h : s.world.Sound) (name : String) : ¬ s.world.Issued (s.spawnNamed name).2 :=
  World.not_issued_spawn (some name) (some []) h

theorem Gone.spawnNamed (he : s.Gone e) (h : s.world.Sound) (name : String) : (s.spawnNamed name).1.Gone e := by
  refine ⟨World.Issued.spawn (some name) (some []) he.1, ?_⟩
  have hne : e ≠ (s.spawnNamed name).2 := by
    rintro rfl
    exact not_issued_spawnNamed h name he.1
  rw [contains_spawnNamed h, he.2, decide_eq_false hne]
  rfl

theorem sound_despawn (h : s.world.Sound) (e : Entity) : (s.despawn e).1.world.Sound := h.despawn e

theorem contains_despawn (h : s.world.Sound) (e e' : Entity) :
    (s.despawn e).1.world.contains e' = (!decide (e' = e) && s.world.contains e') :=
  World.contains_despawn h e e'

theorem Gone.despawn (he : s.Gone e) (h : s.world.Sound) (e' : Entity) : (s.despawn e').1.Gone e := by
  refine ⟨he.1.despawn e' h, ?_⟩
  rw [contains_despawn h, he.2, Bool.and_false]

end Stage

namespace App

/-! ## Section 2 - moves -/

/-- What can happen to an app. -/
inductive Move where
  | spawn (name : String) (scripts : List String)
  | despawn (e : Entity)
  | step (dt : Float32)
  /-- The files change, and watchers see it. -/
  | edit (files : Files) (touches : List Touch)
  /-- Somebody asks for a reload of a script. -/
  | request (identity : String)
  /-- The next compile will take some time. -/
  | delay (lapse : Nat)
  /-- The lines of the log are taken. -/
  | takeLog

/-- What a move makes of an app. -/
def act (a : App) : Move → App
  | .spawn name scripts => (a.spawn name scripts).1
  | .despawn e => (a.despawn e).1
  | .step dt => (a.step dt).1
  | .edit files touches => a.setFiles files touches
  | .request identity => { a with registry := (a.registry.requestReload a.workspace.files identity).1 }
  | .delay lapse => { a with workspace := { a.workspace with lapse } }
  | .takeLog => a.takeLog.1

/-- What moves make of an app, one after the other. -/
def run (a : App) (moves : List Move) : App := moves.foldl act a

/-- The stage of an app. -/
def stage (a : App) : Stage := a.workspace.host

/-! ## Section 3 - the invariant -/

/-- One of some groups is that of an entity, and holds the script of a key. -/
def Backs (groups : List ScriptGroup) (e : Entity) (k : Path) : Prop :=
  ∃ g ∈ groups, g.entity = e ∧ g.holds k = true

/-- The rosters are covered by the groups, and the groups belong to different entities, all alive. -/
structure Tidy (a : App) : Prop where
  tended : a.registry.Tended a.stage (Backs a.groups) a.workspace
  entities : (a.groups.map ScriptGroup.entity).Nodup
  alive : ∀ g ∈ a.groups, a.stage.world.contains g.entity = true

/-- A group is taken down, and others are left. -/
def disband (a : App) (g : ScriptGroup) (others : List ScriptGroup) : App :=
  { a with
    workspace := (g.teardown a.workspace a.registry .detachEntity).1
    registry := (g.teardown a.workspace a.registry .detachEntity).2
    groups := others }

/-- An entity is taken off the stage. -/
def remove (a : App) (e : Entity) : App :=
  { a with workspace := { a.workspace with host := (a.stage.despawn e).1 } }

/-- A tidy app comes from another, and who was gone before is gone still. -/
structure Succeeds (a a' : App) : Prop where
  tidy : a'.Tidy
  gone : ∀ e, a.stage.Gone e → a'.stage.Gone e

namespace Succeeds
variable {a a' a'' : App}

theorem trans (h : a.Succeeds a') (h' : a'.Succeeds a'') : a.Succeeds a'' :=
  ⟨h'.tidy, fun e he => h'.gone e (h.gone e he)⟩

/-- Nobody comes and nobody goes, and the rosters stay covered. -/
theorem of_tended (h : a.Tidy) (ht : a'.registry.Tended a.stage (Backs a.groups) a'.workspace)
    (hgroups : a'.groups = a.groups) : a.Succeeds a' where
  tidy := by
    refine ⟨?_, hgroups ▸ h.entities, fun g hg => ?_⟩
    · rw [hgroups]
      exact ht.anew
    · exact (ht.people.alive g.entity).trans (h.alive g (hgroups ▸ hg))
  gone := fun _ he => ht.people.gone he

end Succeeds

namespace Tidy
variable {a : App}

theorem sound (h : a.Tidy) : a.stage.world.Sound := h.tended.people.sound

/-- A new entity comes with a group that covers all that it is brought to. -/
theorem spawn (h : a.Tidy) (name : String) (scripts : List String) : a.Succeeds (a.spawn name scripts).1 := by
  have hsound := Stage.sound_spawnNamed h.sound name
  have hentered : a.registry.Tended (a.stage.spawnNamed name).1 (Backs a.groups)
      { a.workspace with host := (a.stage.spawnNamed name).1 } :=
    ⟨h.tended.linked.step (.spawn name), h.tended.distinct, .refl hsound, h.tended.covered⟩
  obtain ⟨hformed, hentity⟩ := ScriptGroup.tended_form hentered (a.stage.spawnNamed name).2 scripts
  let g := (ScriptGroup.form { a.workspace with host := (a.stage.spawnNamed name).1 } a.registry
    (a.stage.spawnNamed name).2 scripts).2.2
  have hgroups : (a.spawn name scripts).1.groups = a.groups ++ [g] := rfl
  have hpeople := hformed.people
  refine ⟨⟨?_, ?_, fun g' hg' => ?_⟩, fun e he => hpeople.gone (he.spawnNamed h.sound name)⟩
  · rw [hgroups]
    refine hformed.anew.mono fun e k hcover => ?_
    rcases hcover with ⟨g', hg', hbacks⟩ | ⟨rfl, hholds⟩
    · exact ⟨g', List.mem_append_left _ hg', hbacks⟩
    · exact ⟨g, List.mem_append_right _ List.mem_cons_self, rfl, hholds⟩
  · rw [hgroups, List.map_append, List.nodup_append]
    refine ⟨h.entities, List.nodup_singleton _, ?_⟩
    -- those who have a group are alive, and the new entity was not
    rintro e he e' he' rfl
    obtain ⟨g', hg', rfl⟩ := List.mem_map.1 he
    have hnew : g'.entity = (a.stage.spawnNamed name).2 := (List.mem_singleton.1 he').trans hentity
    exact Stage.not_issued_spawnNamed h.sound name (hnew ▸ h.sound.issued (h.alive g' hg'))
  · refine (hpeople.alive g'.entity).trans ?_
    rw [Stage.contains_spawnNamed h.sound, Bool.or_eq_true, decide_eq_true_iff]
    rcases List.mem_append.1 (hgroups ▸ hg') with hold | hnew
    · exact .inr (h.alive g' hold)
    · rw [List.mem_singleton.1 hnew]
      exact .inl hentity

theorem spawnEach (h : a.Tidy) (entities : List EntitySettings) : (a.spawnEach entities).Tidy := by
  induction entities generalizing a with
  | nil => exact h
  | cons e rest ih => exact ih (h.spawn e.name e.scripts).tidy

/-- Who has no group can be removed without any harm to the rosters. -/
theorem remove (h : a.Tidy) {e : Entity} (hnone : ∀ g ∈ a.groups, g.entity ≠ e) :
    a.Succeeds (a.remove e) where
  tidy := by
    refine ⟨?_, h.entities, fun g hg => ?_⟩
    · exact ⟨h.tended.linked.step (.despawn e), h.tended.distinct, .refl (Stage.sound_despawn h.sound e),
        h.tended.covered⟩
    · refine (Stage.contains_despawn h.sound e g.entity).trans ?_
      rw [h.alive g hg, decide_eq_false (hnone g hg)]
      rfl
  gone := fun _ he => he.despawn h.sound e

/-- A group is taken down. -/
theorem disband (h : a.Tidy) {front back : List ScriptGroup} {g : ScriptGroup}
    (hsplit : a.groups = front ++ g :: back) :
    (a.disband g (front ++ back)).Tidy ∧ a.stage.SamePeople (a.disband g (front ++ back)).stage ∧
      ∀ g' ∈ front ++ back, g'.entity ≠ g.entity := by
  -- the group accounts for what the others do not, so they cover everything when it is down
  have hcover : ∀ e k, Backs a.groups e k → ScriptGroup.Covers (Backs (front ++ back)) g e k := by
    rintro e k ⟨g', hg', rfl, hholds⟩
    rcases mem_split.1 (hsplit ▸ hg') with rfl | hother
    · exact .inr ⟨rfl, hholds⟩
    · exact .inl ⟨g', hother, rfl, hholds⟩
  have hdown := ScriptGroup.tended_teardown (h.tended.mono hcover)
  have hentities := h.entities
  rw [hsplit, List.map_append, List.map_cons, List.nodup_middle, ← List.map_append] at hentities
  obtain ⟨hothers, hnodup⟩ := List.nodup_cons.1 hentities
  refine ⟨⟨hdown.anew, hnodup, fun g' hg' => ?_⟩, hdown.people, fun g' hg' hsame => ?_⟩
  · exact (hdown.people.alive g'.entity).trans (h.alive g' (hsplit ▸ mem_split.2 (.inr hg')))
  · exact hothers (hsame ▸ List.mem_map_of_mem hg')

/-- An entity has left its group before it is removed. -/
theorem despawn_eq (h : a.Tidy) (e : Entity) : ∃ left : App, (a.despawn e).1 = left.remove e ∧ left.Tidy ∧
    a.stage.SamePeople left.stage ∧ ∀ g ∈ left.groups, g.entity ≠ e := by
  cases hfind : a.groups.find? fun g => g.entity = e with
  | none =>
    refine ⟨a, ?_, h, .refl h.sound, fun g hg => by simpa using List.find?_eq_none.1 hfind g hg⟩
    simp only [App.despawn, hfind]
    rfl
  | some g =>
    obtain ⟨hg, front, back, hsplit, herase⟩ := eraseP_split hfind
    obtain ⟨htidy, hpeople, hothers⟩ := h.disband hsplit
    refine ⟨a.disband g (front ++ back), ?_, htidy, hpeople, fun g' hg' => of_decide_eq_true hg ▸ hothers g' hg'⟩
    simp only [App.despawn, hfind, herase]
    rfl

theorem despawn (h : a.Tidy) (e : Entity) : a.Succeeds (a.despawn e).1 := by
  obtain ⟨left, heq, htidy, hpeople, hothers⟩ := h.despawn_eq e
  have hremoved := htidy.remove hothers
  rw [heq]
  exact ⟨hremoved.tidy, fun _ he => hremoved.gone _ (hpeople.gone he)⟩

theorem dead_despawn (h : a.Tidy) (e : Entity) : (a.despawn e).1.stage.world.contains e = false := by
  obtain ⟨left, heq, htidy, -, -⟩ := h.despawn_eq e
  rw [heq]
  exact (Stage.contains_despawn htidy.sound e e).trans (by simp)

/-- Who was there at any time is gone for good when removed. -/
theorem gone_despawn (h : a.Tidy) {e : Entity} (he : a.stage.world.contains e = true ∨ a.stage.Gone e) :
    (a.despawn e).1.stage.Gone e := by
  obtain ⟨left, heq, htidy, hpeople, -⟩ := h.despawn_eq e
  have hissued : left.stage.world.Issued e := hpeople.issued e (he.elim h.sound.issued And.left)
  refine ⟨?_, h.dead_despawn e⟩
  rw [heq]
  exact hissued.despawn e htidy.sound

/-- A step polls the scripts, and the tick leaves everybody where they are. -/
theorem step (h : a.Tidy) (dt : Float32) : a.Succeeds (a.step dt).1 := by
  obtain ⟨hworkspace, hregistry⟩ := a.session_pollEach a.groups
  have hpolled := h.tended.updateEach (a.groups.flatMap ScriptGroup.keys)
  rw [← hworkspace, ← hregistry] at hpolled
  have hticked : (a.pollEach a.groups).1.registry.Tended a.stage (Backs a.groups)
      ((a.pollEach a.groups).1.workspace.tick dt) :=
    ⟨hpolled.linked.step (.tick dt), hpolled.distinct,
      hpolled.people.trans (Stage.samePeople_tick hpolled.people.sound _ dt), hpolled.covered⟩
  have hhost : (a.step dt).1.workspace.host = ((a.pollEach a.groups).1.workspace.tick dt).host := rfl
  exact .of_tended h (hticked.map hhost (fun s => s.drainEvents.1) fun _ => ⟨rfl, rfl, rfl⟩)
    (a.groups_pollEach a.groups).1

theorem setFiles (h : a.Tidy) (files : Files) (touches : List Touch) : a.Succeeds (a.setFiles files touches) := by
  have hhost : (a.setFiles files touches).workspace.host = a.workspace.host := rfl
  refine .of_tended h (h.tended.map hhost (fun s => s.notice files touches) fun s => ?_) rfl
  rcases s.notice_cases files touches with heq | ⟨-, heq⟩ <;> rw [heq] <;> exact ⟨rfl, rfl, rfl⟩

theorem request (h : a.Tidy) (identity : String) :
    a.Succeeds { a with registry := (a.registry.requestReload a.workspace.files identity).1 } := by
  refine .of_tended h ?_ rfl
  unfold Registry.requestReload
  cases hfind : a.registry.lookup a.workspace.files identity with
  | none => exact h.tended
  | some entry =>
    have hentry : a.registry.find? entry.key = some entry :=
      h.tended.distinct.find?_of_mem (Registry.mem_of_find? hfind)
    refine h.tended.modify hentry (by intro; rfl) h.tended.people (fun front back hlinked => ?_)
      (h.tended.covered entry (Registry.mem_of_find? hentry)) (fun _ _ _ => id)
    exact hlinked.call_at .requestReload

theorem act (h : a.Tidy) (m : Move) : a.Succeeds (a.act m) := by
  cases m with
  | spawn name scripts => exact h.spawn name scripts
  | despawn e => exact h.despawn e
  | step dt => exact h.step dt
  | edit files touches => exact h.setFiles files touches
  | request identity => exact h.request identity
  | delay lapse => exact .of_tended h (h.tended.workspace rfl) rfl
  | takeLog => exact .of_tended h (h.tended.workspace rfl) rfl

theorem run (h : a.Tidy) (moves : List Move) : a.Succeeds (a.run moves) := by
  induction moves generalizing a with
  | nil => exact ⟨h, fun _ => id⟩
  | cons m rest ih => exact (h.act m).trans (ih (h.act m).tidy)

end Tidy

/-- An app begins tidy. -/
theorem tidy_start (files : Files) (settings : Settings) (firstMarker : Nat) :
    (start files settings firstMarker).Tidy := by
  let context : Context := { Context.offering [stageModule] with
    logWarnings := settings.scripts.logWarnings, nextMarker := firstMarker }
  let w : Workspace Stage := { files, context, host := ({} : Stage).follow context.modules }
  have hlinked : HostedScripts.Linked ⟨w, []⟩ := (HostedScripts.linked_fresh w).step .share
  have hsound : w.host.world.Sound := by
    rw [Stage.world_follow]
    exact World.sound_empty
  have hempty : Tidy { settings, workspace := w, registry := .ofSettings settings.scripts } :=
    { tended := ⟨hlinked, .nil, .refl hsound, by simp [Registry.ofSettings]⟩
      entities := List.nodup_nil
      alive := by simp }
  exact hempty.spawnEach settings.entities

/-! ## Section 4 - the main theorem -/

/-- What the groups, the rosters of the scripts and the world say about each other. -/
structure Coherent (a : App) : Prop where
  entities : (a.groups.map ScriptGroup.entity).Nodup
  alive : ∀ g ∈ a.groups, a.stage.world.contains g.entity = true
  /-- Whoever is in a roster is the entity of one group and no other, and the script is in this group. -/
  rosters : ∀ entry ∈ a.registry.entries, ∀ e, e ∈ entry.script.attached ∨ e ∈ entry.script.suspended →
    ∃ g, a.groups.filter (fun g => g.entity = e) = [g] ∧ g.holds entry.key = true
  /-- Every instance is noted down by a script of the group of its entity, and has the type of this script. -/
  instances : ∀ e, ∀ i ∈ a.stage.world.instancesOn e,
    ∃ g, a.groups.filter (fun g => g.entity = e) = [g] ∧
      ∃ entry ∈ a.registry.entries, g.holds entry.key = true ∧
        ⟨e, ⟨e, i.id⟩⟩ ∈ entry.script.attachments ∧ entry.script.compiled = some i.type

/-- Nothing in an app is about an entity any more. -/
structure Forgets (a : App) (e : Entity) : Prop where
  dead : a.stage.world.contains e = false
  groups : ∀ g ∈ a.groups, g.entity ≠ e
  rosters : ∀ entry ∈ a.registry.entries, e ∉ entry.script.attached ∧ e ∉ entry.script.suspended
  /-- A reload of a script, whatever the files and the stage are by then, does not depend on how the host deals
      with the entity or what it says about it. -/
  reloads : ∀ entry ∈ a.registry.entries, ∀ (other : Stage.StandIn e) (w : Workspace Stage),
    @Script.recompile Stage other.host w entry.script = Script.recompile w entry.script
  /-- Nor do polls, one script after the other. -/
  polls : ∀ (other : Stage.StandIn e) (keys : List Path),
    @Registry.updateEach Stage other.host a.workspace a.registry keys = a.registry.updateEach a.workspace keys

namespace Tidy
variable {a : App}

/-- Among the groups there is one for an entity that they back. -/
theorem only_group (h : a.Tidy) {e : Entity} {k : Path} (hbacks : Backs a.groups e k) :
    ∃ g, a.groups.filter (fun g => g.entity = e) = [g] ∧ g.holds k = true := by
  obtain ⟨g, hg, rfl, hholds⟩ := hbacks
  exact ⟨g, filter_eq_singleton h.entities hg, hholds⟩

theorem coherent (h : a.Tidy) : a.Coherent where
  entities := h.entities
  alive := h.alive
  rosters := fun entry hentry e he => h.only_group (h.tended.covered entry hentry e (List.mem_append.2 he))
  instances := by
    intro e i hi
    obtain ⟨s, hs, hnoted, htype⟩ := h.tended.linked.attachment_of_instance hi
    obtain ⟨entry, hentry, rfl⟩ := List.mem_map.1 hs
    have hmember : e ∈ entry.script.roster :=
      List.mem_append_left _ (List.mem_map.2 ⟨⟨e, ⟨e, i.id⟩⟩, hnoted, rfl⟩)
    obtain ⟨g, hg, hholds⟩ := h.only_group (h.tended.covered entry hentry e hmember)
    exact ⟨g, hg, entry, hentry, hholds, hnoted, htype⟩

theorem forgets (h : a.Tidy) {e : Entity} (he : a.stage.world.contains e = false) : a.Forgets e := by
  have hgroups : ∀ g ∈ a.groups, g.entity ≠ e := by
    rintro g hg rfl
    simp [h.alive g hg] at he
  have hcover : a.registry.Tended a.stage (fun e' _ => e' ≠ e) a.workspace :=
    h.tended.mono fun e' k ⟨g, hg, hsame, _⟩ => hsame ▸ hgroups g hg
  refine ⟨he, hgroups, fun entry hentry => ?_, fun entry hentry other w => ?_, fun other keys => ?_⟩
  · exact not_or.1 fun hmem => (hcover.ignores hentry).absent (List.mem_append.2 hmem)
  · exact Script.recompile_standIn other (hcover.ignores hentry) w
  · exact Registry.updateEach_standIn other hcover keys

end Tidy

/-- At any time the groups of an app, the rosters of its scripts and its world agree.  An entity that is removed is
    in no group and no roster, and nothing that a reload does is about it; and that stays so whatever happens
    next, if the entity was there at all. -/
theorem leaves_nothing_dangling (files : Files) (settings : Settings) (firstMarker : Nat) (moves : List Move)
    (e : Entity) :
    let a := (start files settings firstMarker).run moves
    a.Coherent ∧ (a.despawn e).1.Forgets e ∧
      (a.stage.world.contains e = true ∨ a.stage.Gone e → ∀ later, ((a.despawn e).1.run later).Forgets e) := by
  intro a
  have h : a.Tidy := ((tidy_start files settings firstMarker).run moves).tidy
  have hremoved := (h.despawn e).tidy
  refine ⟨h.coherent, hremoved.forgets (h.dead_despawn e), fun he later => ?_⟩
  have hlater := hremoved.run later
  exact hlater.tidy.forgets (hlater.gone e (h.gone_despawn he)).2

end App

end HotReload
