import HotReload.Proofs.App.Tidiness
import HotReload.Proofs.Registry.Ranks
import HotReload.Proofs.World.Hooks

/-! # The order in which the scripts of an entity run

    A group lists the scripts of its entity in the order in which they were named, and
    this is the order in which their hooks run, as long as none of them is reloaded.  A
    reload puts a script behind all others of the entity, and nothing ever brings it back
    to its place.

    So the order is told by the list of the group and by the reloads since the entity
    came, each of which moves one key to the end of the list. -/

namespace HotReload

/-! ## Section 1 - what no operation can break -/

namespace Stage

theorem issued_act {s : Stage} (hs : s.world.Sound) {e : Entity} (he : s.world.Issued e) (d : Op) :
    (s.act d).world.Issued e := by
  cases d with
  | spawnNamed name => exact he.spawn (some name) (some [])
  | spawnBare name => exact he.spawn name none
  | despawn e' => exact he.despawn e' hs
  | follow modules =>
    show (s.follow modules).world.Issued e
    rw [world_follow]
    exact he
  | add modules e' type => exact (SamePeople.addBehaviour hs modules e' type).issued e he
  | destroy r => exact (SamePeople.destroyBehaviour hs r).issued e he
  | tick modules dt => exact (samePeople_tick hs modules dt).issued e he

/-- A property of stages that is kept by whatever is done to them. -/
def Robust (P : Stage → Prop) : Prop := ∀ s d, P s → P (s.act d)

theorem robust_numbered : Robust Numbered := fun _ d h => h.act d

theorem robust_issued (e : Entity) : Robust fun s => s.world.Sound ∧ s.world.Issued e :=
  fun _ d h => ⟨sound_act h.1 d, issued_act h.1 h.2 d⟩

variable {P : Stage → Prop}

theorem Robust.lasting (hP : Robust P) : Script.Lasting P where
  add := fun s modules e type => hP s (.add modules e type)
  destroy := fun s r => hP s (.destroy r)

end Stage

namespace Registry
variable {P : Stage → Prop} {w : Workspace Stage}

theorem lasting_visit {α : Type} (hP : Script.Lasting P) (h : P w.host) (r : Registry) (key : Path)
    (called : Script.Call) {f : Workspace Stage → Script → Workspace Stage × Script × α}
    (hf : ∀ s, (f w s).1 = (s.call w called).1) : P (r.visit w key f).1.host := by
  rcases visit_cases w r key f with ⟨-, heq⟩ | ⟨s, -, heq⟩ <;> rw [heq]
  · exact h
  · rw [hf s]
    exact hP.call h s called

theorem lasting_updateEach (hP : Script.Lasting P) (h : P w.host) (r : Registry) (keys : List Path) :
    P (r.updateEach w keys).1.host := by
  induction keys generalizing w r with
  | nil => exact h
  | cons key keys ih => exact ih (lasting_visit hP h r key .update (f := Script.update) fun _ => rfl) _

end Registry

namespace ScriptGroup
variable {P : Stage → Prop} {w : Workspace Stage}

theorem lasting_addEach (hP : Script.Lasting P) (h : P w.host) (r : Registry) (g : ScriptGroup)
    (identities : List String) : P (addEach w r g identities).1.host := by
  induction identities generalizing w r g with
  | nil => exact h
  | cons identity rest ih =>
    suffices hfirst : P (add w r g identity).1.host from ih hfirst _ _
    have hhost := Registry.host_resolve w r identity
    rcases add_cases w r g identity with ⟨error, w', line, hresolve, heq⟩ |
      ⟨w', r', key, hresolve, -, heq⟩ | ⟨w', r', key, hresolve, -, heq⟩ <;>
      rw [heq] <;> rw [hresolve] at hhost
    · exact hhost.symm ▸ h
    · exact hhost.symm ▸ h
    · exact Registry.lasting_visit hP (hhost.symm ▸ h) r' key (.attach g.entity)
        (f := fun w s => s.attach w g.entity) fun _ => rfl

theorem lasting_releaseEach (hP : Script.Lasting P) (h : P w.host) (r : Registry) (e : Entity)
    (scripts : List (String × Path)) : P (releaseEach w r e .detachEntity scripts).1.host := by
  induction scripts generalizing w r with
  | nil => exact h
  | cons script rest ih =>
    obtain ⟨identity, key⟩ := script
    rw [releaseEach_cons]
    exact ih (Registry.lasting_visit hP h r key (.detach e) (f := fun w s => s.detach w e) fun _ => rfl) _

end ScriptGroup

namespace App

/-! ## Section 2 - apps before and between ticks -/

/-- The app that settings call for, before any of the entities in them has come. -/
def opening (files : Files) (settings : Settings) (firstMarker : Nat) : App :=
  let context : Context := { Context.offering [stageModule] with
    logWarnings := settings.scripts.logWarnings, nextMarker := firstMarker }
  { settings
    workspace := { files, context, host := ({} : Stage).follow context.modules }
    registry := .ofSettings settings.scripts }

/-- The entities in settings come one after the other. -/
def arrivals (settings : Settings) : List Move := settings.entities.map fun e => .spawn e.name e.scripts

theorem spawnEach_eq (a : App) (entities : List EntitySettings) :
    a.spawnEach entities = a.run (entities.map fun e => .spawn e.name e.scripts) := by
  induction entities generalizing a with
  | nil => rfl
  | cons e rest ih => exact ih (a.spawn e.name e.scripts).1

theorem start_eq (files : Files) (settings : Settings) (firstMarker : Nat) :
    start files settings firstMarker = (opening files settings firstMarker).run (arrivals settings) :=
  spawnEach_eq _ settings.entities

theorem tidy_opening (files : Files) (settings : Settings) (firstMarker : Nat) :
    (opening files settings firstMarker).Tidy :=
  have h := tidy_start files { settings with entities := [] } firstMarker
  ⟨h.tended, h.entities, h.alive⟩

theorem numbered_opening (files : Files) (settings : Settings) (firstMarker : Nat) :
    (opening files settings firstMarker).stage.Numbered :=
  Stage.numbered_empty.act (.follow (opening files settings firstMarker).workspace.context.modules)

/-- The app after the poll of a step, when the stage is about to tick. -/
def polled (a : App) : App := (a.pollEach a.groups).1

/-- The calls of hooks in a tick. -/
def tickCalls (a : App) (dt : Float32) : List HookCall := a.stage.calls a.workspace.context.modules dt

theorem stage_step (a : App) (dt : Float32) :
    (a.step dt).1.stage = (a.polled.stage.tick a.polled.workspace.context.modules dt).value :=
  rfl

/-- Whatever no operation can break, no move can. -/
theorem robust_act {P : Stage → Prop} (hP : Stage.Robust P) {a : App} (h : P a.stage) (m : Move) :
    P (a.act m).stage := by
  cases m with
  | spawn name scripts =>
    exact ScriptGroup.lasting_addEach (w := { a.workspace with host := (a.stage.spawnNamed name).1 }) hP.lasting
      (hP a.stage (.spawnNamed name) h) _ _ scripts
  | despawn e =>
    show P (a.despawn e).1.stage
    unfold App.despawn
    cases a.groups.find? fun g => g.entity = e with
    | none => exact hP a.stage (.despawn e) h
    | some g => exact hP _ (.despawn e) (ScriptGroup.lasting_releaseEach hP.lasting h _ g.entity g.scripts)
  | step dt =>
    show P (a.step dt).1.stage
    rw [stage_step]
    refine hP _ (.tick _ dt) ?_
    show P (a.pollEach a.groups).1.workspace.host
    rw [(a.session_pollEach a.groups).1]
    exact Registry.lasting_updateEach hP.lasting h _ _
  | _ => exact h

theorem robust_run {P : Stage → Prop} (hP : Stage.Robust P) {a : App} (h : P a.stage) (moves : List Move) :
    P (a.run moves).stage := by
  induction moves generalizing a with
  | nil => exact h
  | cons m rest ih => exact ih (robust_act hP h m)

/-! ## Section 3 - the reloads of a run -/

/-- The scripts that the next step reloads, in the order in which it comes to them. -/
def pending (a : App) : List Path := a.registry.renewed a.workspace (a.groups.flatMap ScriptGroup.keys)

/-- The scripts that a move reloads. -/
def renewedBy (a : App) : Move → List Path
  | .step _ => a.pending
  | _ => []

/-- The scripts that moves reload, first to last. -/
def renewals (a : App) : List Move → List Path
  | [] => []
  | m :: rest => a.renewedBy m ++ (a.act m).renewals rest

/-- The scripts of an entity are given up, whether there are any or not. -/
theorem registry_despawn (a : App) (e : Entity) : (a.despawn e).1.registry =
    (ScriptGroup.releaseEach a.workspace a.registry e .detachEntity
      (((a.groups.find? fun g => g.entity = e).map ScriptGroup.scripts).getD [])).2 := by
  unfold despawn
  cases hfind : a.groups.find? fun g => g.entity = e with
  | none => rfl
  | some g =>
    have hentity : g.entity = e := by simpa using List.find?_some hfind
    rw [← hentity]
    rfl

theorem groups_despawn (a : App) (e : Entity) :
    (a.despawn e).1.groups = a.groups.eraseP fun g => g.entity = e := by
  unfold despawn
  cases hfind : a.groups.find? fun g => g.entity = e with
  | none => exact (List.eraseP_of_forall_not fun g hg => by simpa using List.find?_eq_none.1 hfind g hg).symm
  | some g => rfl

/-- An entity came with a group.  If it is still there then so is the group, and an order of the scripts of the group
    is that of their instances. -/
structure Lined (a : App) (e : Entity) (g : ScriptGroup) (order : List Path) : Prop where
  tidy : a.Tidy
  numbered : a.stage.Numbered
  issued : a.stage.world.Issued e
  entity : g.entity = e
  present : a.stage.world.contains e = true → g ∈ a.groups
  perm : order.Perm g.keys
  ranked : a.registry.Ranked e order

namespace Lined
variable {a : App} {e : Entity} {g : ScriptGroup} {order : List Path}

/-- The entity has no other group. -/
theorem only (h : a.Lined e g order) {g' : ScriptGroup} (hg' : g' ∈ a.groups) (he : g'.entity = e) : g' = g := by
  have hg := h.present (he ▸ h.tidy.alive g' hg')
  exact List.inj_on_of_nodup_map h.tidy.entities hg' hg (he.trans h.entity.symm)

theorem spans (h : a.Lined e g order) : Registry.Spans (Backs a.groups) e order := by
  rintro k ⟨g', hg', hentity, hholds⟩
  rw [h.only hg' hentity] at hholds
  obtain ⟨k', hk', hsame⟩ := ScriptGroup.holds_iff.1 hholds
  exact ⟨k', h.perm.mem_iff.2 hk', hsame⟩

/-- No script has an instance on an entity that has left. -/
theorem none_of_dead (h : a.Tidy) (hdead : a.stage.world.contains e = false) (k : Path) :
    a.registry.instanceOn? e k = none :=
  Registry.instanceOn?_of_absent (fun entry hentry he =>
    not_or.2 ((h.forgets hdead).rosters entry hentry) (List.mem_append.1 he)) k

/-- After a move it is the groups and the instances that have to be looked at. -/
theorem of_ranked (h : a.Lined e g order) (m : Move) (hgroups : g ∈ a.groups → g ∈ (a.act m).groups ∨ m = .despawn e)
    {order' : List Path} (hperm : order'.Perm g.keys) (hr : (a.act m).registry.Ranked e order') :
    (a.act m).Lined e g order' where
  tidy := (h.tidy.act m).tidy
  numbered := robust_act Stage.robust_numbered h.numbered m
  issued := (robust_act (Stage.robust_issued e) ⟨h.tidy.sound, h.issued⟩ m).2
  entity := h.entity
  present := by
    intro halive
    -- an entity that has left does not return, so it was there before the move
    have hbefore : a.stage.world.contains e = true := by
      by_contra hdead
      have hgone := (h.tidy.act m).gone e ⟨h.issued, by simpa using hdead⟩
      exact nomatch hgone.2.symm.trans halive
    rcases hgroups (h.present hbefore) with hg | rfl
    · exact hg
    · exact nomatch (h.tidy.dead_despawn e).symm.trans halive
  perm := hperm
  ranked := hr

theorem polled (h : a.Lined e g order) : a.polled.Lined e g (a.pending.foldl Registry.toBack order) := by
  obtain ⟨hworkspace, hregistry⟩ := a.session_pollEach a.groups
  have hpolled := h.tidy.tended.updateEach (a.groups.flatMap ScriptGroup.keys)
  have hranked := h.tidy.tended.ranked_updateEach h.ranked h.spans (a.groups.flatMap ScriptGroup.keys)
  have hnumbered := Registry.lasting_updateEach Stage.robust_numbered.lasting h.numbered a.registry
    (a.groups.flatMap ScriptGroup.keys)
  rw [← hregistry] at hranked
  rw [← hworkspace] at hnumbered
  rw [← hworkspace, ← hregistry] at hpolled
  have hgroups : a.polled.groups = a.groups := (a.groups_pollEach a.groups).1
  exact
    { tidy := (Succeeds.of_tended h.tidy hpolled hgroups).tidy
      numbered := hnumbered
      issued := hpolled.people.issued e h.issued
      entity := h.entity
      present := fun halive => hgroups.symm ▸ h.present ((hpolled.people.alive e).symm.trans halive)
      perm := (Registry.perm_foldl_toBack _ order).trans h.perm
      ranked := hranked }

theorem act (h : a.Lined e g order) (m : Move) :
    (a.act m).Lined e g ((a.renewedBy m).foldl Registry.toBack order) := by
  cases m with
  | spawn name scripts =>
    -- the group that is formed is for another entity, as this one has been there already
    have hne : (a.stage.spawnNamed name).2 ≠ e := by
      rintro rfl
      exact Stage.not_issued_spawnNamed h.tidy.sound name h.issued
    refine h.of_ranked (.spawn name scripts) (fun hg => .inl (List.mem_append_left _ hg)) h.perm ?_
    exact h.ranked.undisturbed (ScriptGroup.undisturbed_addEach _ _ hne scripts)
  | despawn e' =>
    have hregistry := a.registry_despawn e'
    by_cases he : e' = e
    · -- the entity itself leaves, and its scripts have nothing on it any more
      subst he
      refine h.of_ranked (.despawn e') (fun _ => .inr rfl) h.perm
        (.of_none h.ranked.nodup ?_ (none_of_dead (h.tidy.despawn e').tidy (h.tidy.dead_despawn e')))
      show order ⊆ (a.despawn e').1.registry.keys
      rw [hregistry, ScriptGroup.keys_releaseEach]
      exact h.ranked.known
    · refine h.of_ranked (.despawn e') (fun hg => .inl ?_) h.perm (h.ranked.undisturbed ?_)
      · show g ∈ (a.despawn e').1.groups
        rw [groups_despawn]
        exact (List.mem_eraseP_of_neg (by simp [h.entity, Ne.symm he])).2 hg
      · show a.registry.Undisturbed e (a.despawn e').1.registry
        rw [hregistry]
        exact ScriptGroup.undisturbed_releaseEach he _ _ _
  | step dt =>
    -- only the poll makes instances: the tick keeps the registry, and draining takes events
    refine h.of_ranked (.step dt) (fun hg => .inl ((a.groups_pollEach a.groups).1.symm ▸ hg)) h.polled.perm ?_
    exact h.polled.ranked.undisturbed (.of_find? (Registry.find?_drainEvents _) (fun _ _ => rfl)
      (Registry.keys_map fun _ => rfl))
  | edit files touches =>
    refine h.of_ranked (.edit files touches) .inl h.perm (h.ranked.undisturbed ?_)
    refine .of_find? (Registry.find?_notice _ files touches) (fun _ entry => ?_) (Registry.keys_map fun _ => rfl)
    rcases entry.script.notice_cases files touches with heq | ⟨-, heq⟩
    · rw [heq]
    · rw [heq]
      rfl
  | request identity =>
    refine h.of_ranked (.request identity) .inl h.perm (h.ranked.undisturbed ?_)
    refine .of_find? (Registry.find?_requestReload _ _ identity) (fun _ entry => ?_)
      (Registry.keys_requestReload _ _ identity)
    split <;> rfl
  | delay lapse => exact h.of_ranked (.delay lapse) .inl h.perm h.ranked
  | takeLog => exact h.of_ranked .takeLog .inl h.perm h.ranked

theorem run (h : a.Lined e g order) (moves : List Move) :
    (a.run moves).Lined e g ((a.renewals moves).foldl Registry.toBack order) := by
  induction moves generalizing a order with
  | nil => exact h
  | cons m rest ih =>
    have hrest := ih (h.act m)
    rwa [← List.foldl_append] at hrest

end Lined

/-! ## Section 4 - the main theorem -/

/-- On an entity the scripts of a list take their turns in its order. -/
structure InTurn (a : App) (e : Entity) (order : List Path) : Prop where
  /-- The instances are those that the scripts have on the entity, in the order of the list. -/
  instances : (a.stage.world.instancesOn e).map (fun i => (⟨e, i.id⟩ : InstanceRef)) =
    order.filterMap (a.registry.instanceOn? e)
  /-- Their hooks are called in this order, those of one instance after those of another. -/
  hooks : ∀ dt, ((a.tickCalls dt).filter fun c => c.entity = e).map (fun c => (c.ref, c.hook)) =
    (a.stage.world.instancesOn e).flatMap fun i => (Hook.due i.ready).map fun hook => (⟨e, i.id⟩, hook)
  /-- What the tick logs and prints comes from the calls, in their order. -/
  account : ∀ dt, HookCall.Account (a.tickCalls dt) (a.stage.tick a.workspace.context.modules dt)

theorem Lined.inTurn {a : App} {e : Entity} {g : ScriptGroup} {order : List Path} (h : a.Lined e g order) :
    a.InTurn e order where
  instances := by
    cases hc : a.stage.world.contains e with
    | true => exact h.ranked.instancesOn h.tidy.tended h.numbered h.spans hc
    | false =>
      have hnone : a.registry.instanceOn? e = fun _ => none := funext (none_of_dead h.tidy hc)
      have hnobody : a.stage.world.tagsOn e = [] := World.tagsOn_of_not_contains hc
      rw [hnone, List.filterMap_none, List.map_eq_nil_iff.1 hnobody]
      rfl
  hooks := by
    intro dt
    have hcalls := World.calls_on h.tidy.sound (a.stage.sync a.workspace.context.modules).engine dt e
    rw [tickCalls, Stage.calls, hcalls, List.map_flatMap]
    simp only [Instance.hooks_calls]
  account := a.stage.account a.workspace.context.modules

/-- A new entity comes with a group that lists the scripts in the order of their instances. -/
theorem lined_spawn {a : App} (h : a.Tidy) (hnumbered : a.stage.Numbered) (name : String) (scripts : List String) :
    ∃ g, (a.act (.spawn name scripts)).groups = a.groups ++ [g] ∧
      (a.act (.spawn name scripts)).Lined (a.spawn name scripts).2 g g.keys := by
  have hsound := Stage.sound_spawnNamed h.sound name
  have hentered : a.registry.Tended (a.stage.spawnNamed name).1 (Backs a.groups)
      { a.workspace with host := (a.stage.spawnNamed name).1 } :=
    ⟨h.tended.linked.step (.spawn name), h.tended.distinct, .refl hsound, h.tended.covered⟩
  -- those who have a group are alive, and the new entity was not
  have hnew : ∀ k, ¬ Backs a.groups (a.stage.spawnNamed name).2 k := by
    rintro k ⟨g, hg, hentity, -⟩
    exact Stage.not_issued_spawnNamed h.sound name (hentity ▸ h.sound.issued (h.alive g hg))
  have hranked := ScriptGroup.ranked_form hentered hnew scripts
  have hentity := (ScriptGroup.tended_form hentered (a.stage.spawnNamed name).2 scripts).2
  have htidy := (h.act (.spawn name scripts)).tidy
  have hgroups : (a.act (.spawn name scripts)).groups = a.groups ++ [(ScriptGroup.form
      { a.workspace with host := (a.stage.spawnNamed name).1 } a.registry (a.stage.spawnNamed name).2 scripts).2.2] :=
    rfl
  have hpresent := hgroups ▸ List.mem_append_right a.groups List.mem_cons_self
  refine ⟨_, hgroups, ?_⟩
  exact
    { tidy := htidy
      numbered := robust_act Stage.robust_numbered hnumbered (.spawn name scripts)
      issued := htidy.sound.issued (hentity ▸ htidy.alive _ hpresent)
      entity := hentity
      present := fun _ => hpresent
      perm := .refl _
      ranked := hranked }

/-- At any time after an entity has come, its instances and their hooks are in the order in which its group lists the
    scripts, except that every reload has moved the script to the end; and in the tick of the next step they are in
    the order to which the reloads of this step lead.  So the order is that of the group as long as no script of the
    group is reloaded, and when only one of them is, then this one comes last and the others stay as they were.  The
    entities that settings name come like any other. -/
theorem hooks_run_in_order_of_renewal (files : Files) (settings : Settings) (firstMarker : Nat)
    (before : List Move) (name : String) (scripts : List String) (later : List Move) :
    let a := (opening files settings firstMarker).run before
    let a' := a.act (.spawn name scripts)
    let e := (a.spawn name scripts).2
    let b := a'.run later
    start files settings firstMarker = (opening files settings firstMarker).run (arrivals settings) ∧
    ∃ g, a'.groups = a.groups ++ [g] ∧ g.entity = e ∧ g.keys.Nodup ∧
      (b.stage.world.contains e = true → b.groups.filter (fun g => g.entity = e) = [g]) ∧
      b.InTurn e ((a'.renewals later).foldl Registry.toBack g.keys) ∧
      b.polled.InTurn e ((a'.renewals later ++ b.pending).foldl Registry.toBack g.keys) ∧
      ((∀ k ∈ a'.renewals later ++ b.pending, k ∉ g.keys) → b.polled.InTurn e g.keys) ∧
      ∀ k ∈ g.keys, k ∈ a'.renewals later ++ b.pending →
        (∀ k' ∈ a'.renewals later ++ b.pending, k' ∈ g.keys → k' = k) →
          b.polled.InTurn e (g.keys.erase k ++ [k]) := by
  intro a a' e b
  have htidy : a.Tidy := ((tidy_opening files settings firstMarker).run before).tidy
  have hnumbered : a.stage.Numbered :=
    robust_run Stage.robust_numbered (numbered_opening files settings firstMarker) before
  obtain ⟨g, hgroups, hcame⟩ := lined_spawn htidy hnumbered name scripts
  have hnow : b.Lined e g _ := hcame.run later
  have hnext := hnow.polled
  rw [← List.foldl_append] at hnext
  refine ⟨start_eq files settings firstMarker, g, hgroups, hcame.entity, hcame.ranked.nodup, fun halive => ?_,
    hnow.inTurn, hnext.inTurn, fun hidle => ?_, fun k hk hrenewed halone => ?_⟩
  · rw [← hnow.entity]
    exact filter_eq_singleton hnow.tidy.entities (hnow.present halive)
  · have horder := hnext.inTurn
    rwa [Registry.foldl_toBack_of_disjoint hidle] at horder
  · have horder := hnext.inTurn
    rwa [Registry.foldl_toBack_of_alone hcame.ranked.nodup hk hrenewed halone] at horder

/-! ### Two scripts that change places -/

section swap
open Script (ofSource)

/-- A script whose source is known is loaded, and an entity is attached to it. -/
def enter (w : Workspace Stage) (r : Registry) (e : Entity) (identity : String) (key : Path) (text : String) :
    Workspace Stage × Registry :=
  let made := ofSource w identity key r.options text
  let entry : RegistryEntry := { key, identity, script := made.2.toOption.getD default }
  let visited := Registry.visit made.1 { r with entries := r.entries ++ [entry] } key fun w s => s.attach w e
  (visited.1, visited.2.1)

/-- A script is new to a registry and a group, its source compiles, and it will not be watched. -/
def Enters (w : Workspace Stage) (r : Registry) (g : ScriptGroup) (identity : String) (key : Path) (text : String) :
    Prop :=
  (r.find? key).isNone = true ∧ (ofSource w identity key r.options text).2.isOk = true ∧
    ((ofSource w identity key r.options text).2.toOption.getD default).options.hotReload = false ∧
    g.holds key = false

/-- This is how a group takes in such a script. -/
theorem add_eq_enter {w : Workspace Stage} {r : Registry} {g : ScriptGroup} {identity text : String} {key : Path}
    (hkey : r.keyOf w.files identity = key) (hread : w.readSource key = .ok text)
    (h : Enters w r g identity key text) : g.add w r identity =
      ((enter w r g.entity identity key text).1, (enter w r g.entity identity key text).2,
        { g with scripts := g.scripts ++ [(identity, key)] }) := by
  obtain ⟨hnew, hmade, hwatch, hout⟩ := h
  have hload := Script.load_of_unwatched hread (Prod.ext rfl (eq_ok_of_isOk hmade)) hwatch
  have hresolve : r.resolve w identity = ((ofSource w identity key r.options text).1,
      { r with entries := r.entries ++
        [{ key, identity, script := (ofSource w identity key r.options text).2.toOption.getD default }] },
      .ok key) := by
    unfold Registry.resolve
    dsimp only
    rw [hkey, Option.isNone_iff_eq_none.1 hnew]
    dsimp only
    rw [hload]
  unfold ScriptGroup.add
  rw [hresolve]
  dsimp only
  rw [hout]
  rfl

/-- Two sources in the root folder. -/
def swapFiles : Files :=
  { entries := [(["a"], .file "class A {}".toUTF8), (["b"], .file "class B {}".toUTF8)] }

/-- Settings for scripts in the root folder. -/
def swapSettings : Settings := { scripts := { root := ⟨"/"⟩, extension := "", hotReload := false } }

/-- The app before the entity comes. -/
def swapStart : App := start swapFiles swapSettings 1

/-- The workspace and the registry when the entity has the first script, -/
def swapFirst : Workspace Stage × Registry :=
  enter { swapStart.workspace with host := (swapStart.stage.spawnNamed "E").1 } swapStart.registry ⟨0, 1⟩ "a" ⟨"/a"⟩
    "class A {}"

/-- and when it has both. -/
def swapBoth : Workspace Stage × Registry := enter swapFirst.1 swapFirst.2 ⟨0, 1⟩ "b" ⟨"/b"⟩ "class B {}"

theorem keyOf_swap {r : Registry} (hr : r.setting = swapStart.registry.setting) {f : Files} (hf : f = swapFiles) :
    r.keyOf f "a" = ⟨"/a"⟩ ∧ r.keyOf f "b" = ⟨"/b"⟩ := by
  rw [Registry.keyOf_congr hr hf, Registry.keyOf_congr hr hf]
  have ha : swapStart.registry.resolvePath "a" = ⟨"/a"⟩ := by decide +kernel
  have hb : swapStart.registry.resolvePath "b" = ⟨"/b"⟩ := by decide +kernel
  have hpieces : Path.pieces ⟨"/a"⟩ = ["", "a"] ∧ Path.pieces ⟨"/b"⟩ = ["", "b"] := by decide +kernel
  have hat : swapFiles.resolve ⟨"/a"⟩ = .ok ["a"] :=
    Files.resolve_file (by decide +kernel) (by decide +kernel) hpieces.1 rfl
  have hbt : swapFiles.resolve ⟨"/b"⟩ = .ok ["b"] :=
    Files.resolve_file (by decide +kernel) (by decide +kernel) hpieces.2 rfl
  rw [Registry.keyOf, ha, Registry.keyOf, hb, Files.normalize_of_resolved (by decide +kernel) hat,
    Files.normalize_of_resolved (by decide +kernel) hbt]
  decide +kernel

theorem readSource_swap {w : Workspace Stage} (hf : w.files = swapFiles) :
    w.readSource ⟨"/a"⟩ = .ok "class A {}" ∧ w.readSource ⟨"/b"⟩ = .ok "class B {}" := by
  have hpieces : Path.pieces ⟨"/a"⟩ = ["", "a"] ∧ Path.pieces ⟨"/b"⟩ = ["", "b"] := by decide +kernel
  have ha : swapFiles.readText ⟨"/a"⟩ = .ok "class A {}" :=
    Files.readText_of_root (by decide +kernel) (by decide +kernel) hpieces.1 rfl
  have hb : swapFiles.readText ⟨"/b"⟩ = .ok "class B {}" :=
    Files.readText_of_root (by decide +kernel) (by decide +kernel) hpieces.2 rfl
  rw [Workspace.readSource, Workspace.readSource, hf, ha, hb]
  exact ⟨rfl, rfl⟩

/-- The entity comes with both scripts. -/
theorem spawn_swap : (swapStart.spawn "E" ["a", "b"]).1 =
    { swapStart with
      workspace := swapBoth.1
      registry := swapBoth.2
      groups := [{ entity := ⟨0, 1⟩, scripts := [("a", ⟨"/a"⟩), ("b", ⟨"/b"⟩)] }] } := by
  let w : Workspace Stage := { swapStart.workspace with host := (swapStart.stage.spawnNamed "E").1 }
  have hfirst : ScriptGroup.add w swapStart.registry { entity := ⟨0, 1⟩ } "a" =
      (swapFirst.1, swapFirst.2, { entity := ⟨0, 1⟩, scripts := [("a", ⟨"/a"⟩)] }) :=
    add_eq_enter (keyOf_swap rfl rfl).1 (readSource_swap rfl).1 (by unfold Enters; decide +kernel)
  have hworked := ScriptGroup.worked_add w swapStart.registry { entity := ⟨0, 1⟩ } "a"
  rw [hfirst] at hworked
  have hsecond : ScriptGroup.add swapFirst.1 swapFirst.2 { entity := ⟨0, 1⟩, scripts := [("a", ⟨"/a"⟩)] } "b" =
      (swapBoth.1, swapBoth.2, { entity := ⟨0, 1⟩, scripts := [("a", ⟨"/a"⟩), ("b", ⟨"/b"⟩)] }) :=
    add_eq_enter (keyOf_swap hworked.setting hworked.files).2 (readSource_swap hworked.files).2
      (by unfold Enters; decide +kernel)
  have hform : ScriptGroup.form w swapStart.registry ⟨0, 1⟩ ["a", "b"] =
      (swapBoth.1, swapBoth.2, { entity := ⟨0, 1⟩, scripts := [("a", ⟨"/a"⟩), ("b", ⟨"/b"⟩)] }) := by
    simp only [ScriptGroup.form, ScriptGroup.addEach, hfirst, hsecond]
  have hentity : (swapStart.stage.spawnNamed "E").2 = ⟨0, 1⟩ := by decide +kernel
  have hspawn : (swapStart.spawn "E" ["a", "b"]).1 =
      { swapStart with
        workspace := (ScriptGroup.form w swapStart.registry (swapStart.stage.spawnNamed "E").2 ["a", "b"]).1
        registry := (ScriptGroup.form w swapStart.registry (swapStart.stage.spawnNamed "E").2 ["a", "b"]).2.1
        groups := swapStart.groups ++
          [(ScriptGroup.form w swapStart.registry (swapStart.stage.spawnNamed "E").2 ["a", "b"]).2.2] } :=
    rfl
  rw [hspawn, hentity, hform]
  rfl

/-- The registry when somebody has asked for a reload of the first script. -/
def swapAsked : Registry :=
  swapBoth.2.modify ⟨"/a"⟩ fun entry => { entry with script := entry.script.requestReload }

theorem files_swapBoth : swapBoth.1.files = swapFiles := by
  have hfiles := (swapStart.worked_spawn "E" ["a", "b"]).files
  rwa [spawn_swap] at hfiles

/-- The app by then. -/
def swapApp : App := swapStart.run [.spawn "E" ["a", "b"], .request "a"]

theorem swapApp_eq : swapApp =
    { swapStart with
      workspace := swapBoth.1
      registry := swapAsked
      groups := [{ entity := ⟨0, 1⟩, scripts := [("a", ⟨"/a"⟩), ("b", ⟨"/b"⟩)] }] } := by
  have hworked := swapStart.worked_spawn "E" ["a", "b"]
  rw [spawn_swap] at hworked
  have hasked : (swapBoth.2.requestReload swapBoth.1.files "a").1 = swapAsked := by
    have hfound : (swapBoth.2.find? ⟨"/a"⟩).map RegistryEntry.key = some ⟨"/a"⟩ := by decide +kernel
    obtain ⟨entry, hentry, hkey⟩ := Option.map_eq_some_iff.1 hfound
    rw [Registry.requestReload, Registry.lookup, (keyOf_swap hworked.setting hworked.files).1, hentry]
    dsimp only
    rw [hkey]
    rfl
  show ((swapStart.spawn "E" ["a", "b"]).1.act (.request "a")) = _
  rw [spawn_swap, ← hasked]
  rfl

/-- The first script when it is reloaded. -/
def swapReload : Workspace Stage × Script × Except ScriptError Unit :=
  Script.recompileFrom swapBoth.1 ((swapAsked.script? ⟨"/a"⟩).getD default).answered (.ok "class A {}")

/-- What the reload leads to: the first script has a new instance, behind that of the second, which has nothing to
    answer. -/
theorem swapReload_fields :
    (swapReload.1.host.world.instancesOn ⟨0, 1⟩).map Instance.id = [2, 3] ∧
      ([(⟨"/a"⟩ : Path), ⟨"/b"⟩].filterMap
        ((swapAsked.setScript ⟨"/a"⟩ swapReload.2.1).instanceOn? ⟨0, 1⟩)).map InstanceRef.id = [3, 2] ∧
      ((swapAsked.setScript ⟨"/a"⟩ swapReload.2.1).find? ⟨"/b"⟩).map (fun entry => entry.script.signal.raised) =
        some false := by
  decide +kernel

/-- The poll reloads the first script, and finds nothing to do for the second. -/
theorem polled_swap : swapApp.polled.stage = swapReload.1.host ∧
    swapApp.polled.registry.instanceOn? ⟨0, 1⟩ = (swapAsked.setScript ⟨"/a"⟩ swapReload.2.1).instanceOn? ⟨0, 1⟩ := by
  let r : Registry := swapAsked.setScript ⟨"/a"⟩ swapReload.2.1
  -- The source is read back by the lemmas about files; what is done with it can be computed.
  have hfirst : swapAsked.update swapBoth.1 ⟨"/a"⟩ = (swapReload.1, r, true) := by
    have hfound : (swapAsked.script? ⟨"/a"⟩).map (fun s => (s.path, s.discarded, s.signal.raised)) =
        some (⟨"/a"⟩, false, true) := by decide +kernel
    obtain ⟨s, hs, hfields⟩ := Option.map_eq_some_iff.1 hfound
    have hpath : s.answered.path = ⟨"/a"⟩ := congrArg Prod.fst hfields
    have hreload : s.answered.recompile swapBoth.1 = swapReload := by
      rw [Script.recompile, hpath, (readSource_swap files_swapBoth).1, swapReload, hs]
      rfl
    have hupdate : s.update swapBoth.1 = (swapReload.1, swapReload.2.1, true) := by
      rcases Script.update_cases swapBoth.1 s with ⟨-, -, heq⟩ | ⟨hidle, -⟩
      · rw [heq, hreload]
      · simp only [Prod.mk.injEq] at hfields
        simp [hfields] at hidle
    unfold Registry.update Registry.visit
    rw [hs]
    dsimp only
    rw [hupdate]
    rfl
  have hsecond : ∃ s, r.find? ⟨"/b"⟩ = some s ∧ r.update swapReload.1 ⟨"/b"⟩ =
      (swapReload.1, r.setScript ⟨"/b"⟩ s.script, false) := by
    obtain ⟨entry, hentry, hidle⟩ := Option.map_eq_some_iff.1 swapReload_fields.2.2
    refine ⟨entry, hentry, ?_⟩
    unfold Registry.update Registry.visit Registry.script?
    rw [hentry]
    dsimp only [Option.map_some]
    rw [Script.update_of_idle (.inr hidle)]
    rfl
  obtain ⟨entry, hentry, hsecond⟩ := hsecond
  have hpoll : swapAsked.updateEach swapBoth.1 [⟨"/a"⟩, ⟨"/b"⟩] =
      (swapReload.1, r.setScript ⟨"/b"⟩ entry.script, 1) := by
    simp only [Registry.updateEach, hfirst, hsecond]
    rfl
  obtain ⟨hworkspace, hregistry⟩ := swapApp.session_pollEach swapApp.groups
  have hkeys : swapApp.groups.flatMap ScriptGroup.keys = [⟨"/a"⟩, ⟨"/b"⟩] := by
    rw [swapApp_eq]
    rfl
  have hworkspace' : swapApp.polled.workspace = swapReload.1 := hworkspace.trans (by rw [hkeys, swapApp_eq, hpoll])
  have hregistry' : swapApp.polled.registry = r.setScript ⟨"/b"⟩ entry.script :=
    hregistry.trans (by rw [hkeys, swapApp_eq, hpoll])
  refine ⟨congrArg Workspace.host hworkspace', ?_⟩
  rw [hregistry']
  exact funext (Registry.Undisturbed.setScript hentry rfl).same

/-- A reload does change the order: in the next tick the script comes after one that the group lists behind it. -/
theorem reload_changes_order : ¬ ∀ (files : Files) (settings : Settings) (firstMarker : Nat) (moves : List Move),
    let b := (start files settings firstMarker).run moves
    ∀ g ∈ b.groups, b.polled.InTurn g.entity g.keys := by
  intro h
  have hgroups : { entity := ⟨0, 1⟩, scripts := [("a", ⟨"/a"⟩), ("b", ⟨"/b"⟩)] } ∈ swapApp.groups := by
    rw [swapApp_eq]
    exact List.mem_cons_self
  have hlisted := congrArg (List.map InstanceRef.id)
    (h swapFiles swapSettings 1 [.spawn "E" ["a", "b"], .request "a"] _ hgroups).instances
  have hlisted' : (swapApp.polled.stage.world.instancesOn ⟨0, 1⟩).map Instance.id =
      ([(⟨"/a"⟩ : Path), ⟨"/b"⟩].filterMap (swapApp.polled.registry.instanceOn? ⟨0, 1⟩)).map InstanceRef.id := by
    rw [List.map_map] at hlisted
    exact hlisted
  rw [polled_swap.1, polled_swap.2, swapReload_fields.1, swapReload_fields.2.1] at hlisted'
  exact absurd hlisted' (by decide)

end swap

end App

end HotReload
