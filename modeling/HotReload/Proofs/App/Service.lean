import HotReload.Proofs.App.Arrivals
import HotReload.Proofs.App.Tidiness
import HotReload.Proofs.Registry.Inborn
import HotReload.Proofs.Registry.Turns
import HotReload.Proofs.Lists

/-! # What a step answers

    In a step every group polls a list of its own, and the lists overlap as the groups
    share their scripts.  To the registry this is one poll of one long list, which
    answers every script that is called once.  So a step serves the scripts that it
    *owes* an answer: those that are due and that some group holds.

    The report of a step has the events of its reloads, after whatever has waited in the
    queues before.  That no event of an earlier reload is among them needs an invariant:
    reloads happen in steps only, and a step takes all events in the end.  Between steps
    groups are formed and taken down, which is told by events of other kinds, so the
    scripts of an app are *calm* whenever a step begins. -/

namespace HotReload

/-! ## Section 1 - scripts that have no reload to tell of -/

namespace Script

/-- No event that tells of a reload waits. -/
def Calm (s : Script) : Prop := ∀ event ∈ s.events.events, event.isReload = false

namespace Calm
variable {s s' : Script}

theorem of_withholds (h : s.Calm) (hsilent : Withholds (fun event => event.isReload = true) s s') : s'.Calm := by
  intro event hmem
  by_contra hreload
  rw [Bool.not_eq_false] at hreload
  have hbefore := h event (hsilent.mem_before hreload hmem)
  rw [hreload] at hbefore
  cases hbefore

theorem filter (h : s.Calm) : s.events.events.filter Event.isReload = [] := by
  rw [List.filter_eq_nil_iff]
  intro event hmem
  rw [h event hmem]
  exact Bool.false_ne_true

/-- The event of a reload is the only one of its kind, whether or not another one makes room for it. -/
theorem filter_push (h : s.Calm) {event : Event} (hreload : event.isReload = true) :
    (s.events.push event).events.filter Event.isReload = [event] := by
  have hold : (s.events.events.drop 1).filter Event.isReload = [] := by
    rw [List.filter_eq_nil_iff]
    intro event' hmem
    rw [h event' (List.mem_of_mem_drop hmem)]
    exact Bool.false_ne_true
  have hnew : [event].filter Event.isReload = [event] := List.filter_cons_of_pos hreload
  unfold EventQueue.push
  split
  · rw [List.filter_append, hold, hnew, List.nil_append]
  · rw [List.filter_append, h.filter, hnew, List.nil_append]

end Calm

theorem inborn_calm : Inborn Calm where
  load := by
    intro η w identity p options s h
    obtain ⟨type, source, elapsed, watch, rfl⟩ := load_made h
    intro event hmem
    rw [List.mem_singleton.1 hmem]
    rfl
  resume := fun w _ h => h.of_withholds (.of_eq (tells_resume w _).events)
  discard := fun h => h.of_withholds (.discard (fun _ => nofun) _)

end Script

/-- When all events have been taken there is none that tells of a reload. -/
theorem Registry.calm_drainEvents (r : Registry) : r.drainEvents.1.All Script.Calm := by
  intro k s hs
  obtain ⟨e', he', rfl⟩ := script?_eq_some.1 hs
  rw [find?_drainEvents] at he'
  obtain ⟨e, -, rfl⟩ := Option.map_eq_some_iff.1 he'
  intro event hmem
  cases hmem

namespace App
variable {a : App}

theorem calm_spawn (h : a.registry.All Script.Calm) (name : String) (scripts : List String) :
    (a.spawn name scripts).1.registry.All Script.Calm :=
  h.form Script.inborn_calm (fun w s e hs => hs.of_withholds (.attach (fun _ _ => nofun) w s e)) _ _ scripts

theorem calm_despawn (h : a.registry.All Script.Calm) (e : Entity) :
    (a.despawn e).1.registry.All Script.Calm := by
  cases hfind : a.groups.find? fun g => g.entity = e with
  | none =>
    rw [registry_despawn_of_none hfind]
    exact h
  | some g =>
    have hdown : (g.teardown a.workspace a.registry .detachEntity).2.All Script.Calm :=
      h.teardown Script.inborn_calm (fun w s e hs => hs.of_withholds (.detach (fun _ _ => nofun) w s e)) _ _ _
    unfold despawn
    rw [hfind]
    exact hdown

/-- Whatever happens to an app leaves its scripts calm. -/
theorem calm_act (h : a.registry.All Script.Calm) (m : Move) : (a.act m).registry.All Script.Calm := by
  cases m with
  | spawn name scripts => exact calm_spawn h name scripts
  | despawn e => exact calm_despawn h e
  | step dt => exact Registry.calm_drainEvents _
  | edit files touches => exact h.notice (fun _ => id) files touches
  | request identity => exact h.requestReload (fun _ => id) a.workspace.files identity
  | delay lapse => exact h
  | takeLog => exact h

theorem calm_run (h : a.registry.All Script.Calm) (moves : List Move) : (a.run moves).registry.All Script.Calm := by
  induction moves generalizing a with
  | nil => exact h
  | cons m rest ih => exact ih (calm_act h m)

theorem calm_spawnEach (h : a.registry.All Script.Calm) (entities : List EntitySettings) :
    (a.spawnEach entities).registry.All Script.Calm := by
  induction entities generalizing a with
  | nil => exact h
  | cons e rest ih => exact ih (calm_spawn h e.name e.scripts)

theorem calm_start (files : Files) (settings : Settings) (firstMarker : Nat) :
    (start files settings firstMarker).registry.All Script.Calm := by
  refine calm_spawnEach ?_ settings.entities
  intro k s hs
  cases hs

/-! ## Section 2 - what a step owes -/

/-- Whether a script is due and belongs to some group. -/
def owes (a : App) (e : RegistryEntry) : Bool := e.isDue && a.groups.any fun g => g.holds e.key

/-- The scripts that a step owes an answer are those that its turns call. -/
theorem owes_eq (a : App) (e : RegistryEntry) : a.owes e = e.isCalled a.turns := by
  have hholds : ∀ g : ScriptGroup, g.holds e.key = g.keys.any fun key => decide (e.key.Same key) := by
    intro g
    rw [g.holds_eq]
    congr 1
    funext key
    exact decide_eq_decide.2 ⟨Path.Same.symm, Path.Same.symm⟩
  rw [owes, RegistryEntry.isCalled, turns, List.any_flatMap]
  simp only [hholds]

theorem owes_of_holds {e : RegistryEntry} {g : ScriptGroup} (hdue : e.isDue = true) (hg : g ∈ a.groups)
    (hholds : g.holds e.key = true) : a.owes e = true := by
  rw [owes, hdue, Bool.true_and]
  exact List.any_eq_true.2 ⟨g, hg, hholds⟩

/-- The entry of a script after its turns in a step, if any. -/
def attended (a : App) (e : RegistryEntry) : RegistryEntry :=
  if a.owes e then e.reloaded (a.workspaceAt e.key) else e

theorem identity_attended (a : App) (e : RegistryEntry) : (a.attended e).identity = e.identity := by
  unfold attended
  split <;> rfl

theorem attends_pollEach (h : a.registry.Distinct) :
    a.registry.Attends a.workspaceAt a.owes (a.pollEach a.groups).1.registry (a.pollEach a.groups).2 := by
  rw [(a.session_pollEach a.groups).2, a.count_pollEach]
  exact (Registry.attends_updateEach h a.workspace a.turns).congr fun e _ => a.owes_eq e

/-! ## Section 3 - the main theorem -/

/-- What it means that a step serves the scripts that it owes an answer, and no others. -/
structure Serves (a a' : App) (report : StepReport) : Prop where
  groups : a'.groups = a.groups
  /-- Each of them is reloaded once; whatever else happens to a script is that its events are taken. -/
  entries : a'.registry.entries = a.registry.entries.map fun e =>
    { a.attended e with script := (a.attended e).script.drainEvents.1 }
  /-- They are counted, -/
  recompiled : report.recompiled = a.registry.entries.countP a.owes
  /-- and the events are reported script by script: -/
  events : report.events = a.registry.sorted.flatMap fun e => (a.attended e).script.events.events
  /-- each of them tells of one reload, -/
  told : ∀ e ∈ a.registry.entries, a.owes e = true → ∃ event : Event, event.isReload = true ∧
    event.script = e.script.identity ∧ (a.attended e).script.events.events.filter Event.isReload = [event]
  /-- and no other script tells of any. -/
  silent : ∀ e ∈ a.registry.entries, a.owes e = false →
    (a.attended e).script.events.events.filter Event.isReload = []
  reloads : report.events.countP Event.isReload = report.recompiled
  /-- Afterwards nothing is due in any group, -/
  idle : ∀ e ∈ a'.registry.entries, (∃ g ∈ a'.groups, g.holds e.key = true) → e.isDue = false
  /-- and all other signals are as they were. -/
  signals : a'.registry.entries.map (fun e => e.script.signal.raised) =
    a.registry.entries.map fun e => e.script.signal.raised && !a.owes e

theorem told_attended (a : App) {e : RegistryEntry} (hcalm : e.script.Calm) (howed : a.owes e = true) :
    ∃ event : Event, event.isReload = true ∧ event.script = e.script.identity ∧
      (a.attended e).script.events.events.filter Event.isReload = [event] := by
  obtain ⟨event, hreload, hidentity, hevents⟩ :=
    Script.told_recompile (a.workspaceAt e.key) e.script.answered
  have hpush : (e.reloaded (a.workspaceAt e.key)).script.events = e.script.events.push event := hevents
  refine ⟨event, hreload, hidentity, ?_⟩
  rw [attended, if_pos howed, hpush]
  exact hcalm.filter_push hreload

theorem silent_attended (a : App) {e : RegistryEntry} (hcalm : e.script.Calm) (howed : a.owes e = false) :
    (a.attended e).script.events.events.filter Event.isReload = [] := by
  rw [attended, howed, if_neg Bool.false_ne_true]
  exact hcalm.filter

theorem countP_attended (a : App) {e : RegistryEntry} (hcalm : e.script.Calm) :
    (a.attended e).script.events.events.countP Event.isReload = if a.owes e then 1 else 0 := by
  rw [List.countP_eq_length_filter]
  cases howed : a.owes e with
  | true =>
    obtain ⟨event, -, -, hfilter⟩ := a.told_attended hcalm howed
    rw [hfilter]
    rfl
  | false =>
    rw [a.silent_attended hcalm howed]
    rfl

theorem serves_step (h : a.registry.Distinct) (hcalm : a.registry.All Script.Calm) (dt : Float32) :
    a.Serves (a.step dt).1 (a.step dt).2 := by
  have hattends := attends_pollEach h
  have hpolled : (a.pollEach a.groups).1.registry.entries = a.registry.entries.map a.attended := hattends.entries
  -- taking the events is all that a step does to the scripts besides the poll
  have hdrained : (a.step dt).1.registry.entries = (a.pollEach a.groups).1.registry.entries.map fun e =>
      { e with script := e.script.drainEvents.1 } := rfl
  have hgroups : (a.step dt).1.groups = a.groups := (a.groups_pollEach a.groups).1
  have hevents : (a.step dt).2.events = a.registry.sorted.flatMap fun e => (a.attended e).script.events.events := by
    show (a.pollEach a.groups).1.registry.sorted.flatMap _ = _
    rw [Registry.sorted_map hpolled a.identity_attended, List.flatMap_map]
    rfl
  refine
    { groups := hgroups
      entries := by rw [hdrained, hpolled, List.map_map]; rfl
      recompiled := hattends.count
      events := hevents
      told := fun e he howed => a.told_attended (hcalm.of_mem h he) howed
      silent := fun e he howed => a.silent_attended (hcalm.of_mem h he) howed
      reloads := ?_
      idle := ?_
      signals := ?_ }
  · have hhits := countP_flatMap_of_hits fun e he => a.countP_attended (hcalm.of_mem h he)
    rw [hevents, (a.registry.sorted_perm.flatMap_right _).countP_eq, hhits]
    exact hattends.count.symm
  · rintro e' he' ⟨g, hg, hholds⟩
    rw [hdrained] at he'
    rw [hgroups] at hg
    obtain ⟨e, he, rfl⟩ := List.mem_map.1 he'
    show e.isDue = false
    rw [← Bool.not_eq_true]
    intro hdue
    obtain ⟨before, -, hkey, hdue', hnot⟩ := hattends.due he hdue
    -- it was due before, and the group holds it, so it was owed an answer
    have hheld : g.holds before.key = true := hkey ▸ hholds
    rw [owes_of_holds hdue' hg hheld] at hnot
    cases hnot
  · rw [hdrained, List.map_map]
    exact hattends.signals

/-- At any time a step of an app serves the scripts of its groups that are in service and have their signals raised:
    each is reloaded once and tells of it once, and the number that is reported is theirs.  Afterwards nothing is
    due in any group, and all other signals are as they were.  A poll of all scripts of a registry does the
    same for all that are in service and have their signals raised. -/
theorem step_serves_due :
    (∀ (files : Files) (settings : Settings) (firstMarker : Nat) (moves : List Move) (dt : Float32),
      let a := (start files settings firstMarker).run moves
      a.Serves (a.step dt).1 (a.step dt).2 ∧ a.registry.ServesAll a.workspace) ∧
    (∀ {η : Type} [Host η] (w : Workspace η) (r : Registry) (ops : List (RegistryOp η)),
      let d := (RegistrySession.opened w r).run ops
      d.registry.ServesAll d.workspace) := by
  refine ⟨?_, ?_⟩
  · intro files settings firstMarker moves dt a
    have hdistinct : a.registry.Distinct := ((tidy_start files settings firstMarker).run moves).tidy.tended.distinct
    have hcalm : a.registry.All Script.Calm := calm_run (calm_start files settings firstMarker) moves
    exact ⟨serves_step hdistinct hcalm dt, Registry.servesAll hdistinct a.workspace⟩
  · intro η _ w r ops d
    exact Registry.servesAll ((RegistrySession.Sound.opened w r).run ops).distinct d.workspace

end App

end HotReload
