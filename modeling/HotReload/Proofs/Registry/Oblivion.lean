import HotReload.Proofs.Registry.Rosters

/-! # Entities that no roster mentions

    What a host does with an entity, and what it says about it, can be read off the
    instances, the log and the printed lines.  So whether a reload has anything to do
    with an entity is a matter of two runs: one with the stage itself, and one with a
    stand-in that deals with this entity in any other way.  If no reload asks anything
    about the entity then the runs cannot differ, in the log or elsewhere.

    This is the case as soon as the entity has left the rosters.  A reload that
    succeeds asks about those of the roster, one that fails removes the instances of
    those attached, and neither looks at anybody else. -/

namespace HotReload

/-- A host that does the same as the stage with everybody, except maybe with one entity. -/
structure Stage.StandIn (e : Entity) where
  host : Host Stage
  add : ∀ s modules e' type, e' ≠ e → host.addBehaviour s modules e' type = s.addBehaviour modules e' type
  destroy : ∀ s (r : InstanceRef), r.entity ≠ e → host.destroyBehaviour s r = s.destroyBehaviour r

namespace Script
variable {e : Entity}

/-! ## Section 1 - reloads of one script -/

/-- A script has nothing to do with an entity. -/
structure Ignores (s : Script) (e : Entity) : Prop where
  absent : e ∉ s.roster
  straight : s.Straight

theorem strip_standIn (other : Stage.StandIn e) {s : Script} (hs : s.Ignores e) (w : Workspace Stage) :
    @strip Stage other.host w s = strip w s := by
  have hdestroy : ∀ w : Workspace Stage, ∀ a ∈ s.attachments,
      @destroyInstance Stage other.host w s a = destroyInstance w s a := by
    intro w a ha
    have hne : a.ref.entity ≠ e := by
      rw [hs.straight a ha]
      rintro rfl
      exact hs.absent (List.mem_append_left _ (List.mem_map_of_mem ha))
    have hasked : @Workspace.destroyBehaviour Stage other.host w a.ref = w.destroyBehaviour a.ref :=
      congrArg (fun destroyed : Stage × Except HostError Unit => ({ w with host := destroyed.1 }, destroyed.2))
        (other.destroy w.host a.ref hne)
    unfold destroyInstance
    rw [hasked]
  unfold strip
  rw [List.foldl_ext _ _ w hdestroy]

theorem readd_standIn (other : Stage.StandIn e) (type : BehaviourType) {entities : List Entity}
    (he : e ∉ entities) (w : Workspace Stage) (s : Script) :
    @readd Stage other.host w s type entities = readd w s type entities := by
  induction entities generalizing w s with
  | nil => rfl
  | cons e' rest ih =>
    have hrest := List.not_mem_of_not_mem_cons he
    have hasked : @Workspace.addBehaviour Stage other.host w e' type = w.addBehaviour e' type :=
      congrArg (fun added : Added Stage =>
          ({ w with host := added.host, printed := w.printed ++ added.printed }, added.result))
        (other.add w.host w.context.modules e' type (List.ne_of_not_mem_cons he).symm)
    unfold readd
    rw [hasked]
    split
    · exact ih hrest _ _
    · exact ih hrest _ _

/-- A reload, failed or not, has to do with those in the roster alone. -/
theorem recompile_standIn (other : Stage.StandIn e) {s : Script} (hs : s.Ignores e) (w : Workspace Stage) :
    @recompile Stage other.host w s = recompile w s := by
  unfold recompile recompileFrom
  split
  · rfl
  · rw [strip_standIn other hs w]
    dsimp only
    unfold renew
    split
    · rfl
    · split
      · rfl
      · rw [readd_standIn other _ hs.absent]

theorem update_standIn (other : Stage.StandIn e) {s : Script} (hs : s.Ignores e) (w : Workspace Stage) :
    @update Stage other.host w s = update w s := by
  have hanswer : s.takeSignal.1.Ignores e := by
    unfold takeSignal
    split
    · exact hs
    · exact ⟨hs.absent, hs.straight⟩
  unfold update
  split
  · rfl
  · next s' htake =>
    rw [htake] at hanswer
    rw [recompile_standIn other hanswer]

end Script

namespace Registry
variable {start : Stage} {w : Workspace Stage} {r : Registry} {e : Entity}

/-! ## Section 2 - polls -/

theorem Tended.ignores (h : Tended start (fun e' _ => e' ≠ e) w r) {entry : RegistryEntry} (hentry : entry ∈ r.entries) :
    entry.script.Ignores e :=
  ⟨fun he => h.covered entry hentry e he rfl, h.linked.straight _ (List.mem_map_of_mem hentry)⟩

/-- A poll has to do with those in the rosters alone. -/
theorem updateEach_standIn (other : Stage.StandIn e) (h : Tended start (fun e' _ => e' ≠ e) w r)
    (keys : List Path) : @updateEach Stage other.host w r keys = r.updateEach w keys := by
  induction keys generalizing w r with
  | nil => rfl
  | cons key keys ih =>
    have hturn : @update Stage other.host w r key = r.update w key := by
      unfold update visit
      cases hs : r.script? key with
      | none => rfl
      | some s =>
        obtain ⟨entry, hfind, rfl⟩ := script?_eq_some.1 hs
        dsimp only
        rw [Script.update_standIn other (h.ignores (mem_of_find? hfind))]
    have hrest : @updateEach Stage other.host (r.update w key).1 (r.update w key).2.1 keys =
        (r.update w key).2.1.updateEach (r.update w key).1 keys := ih (h.updateEach [key])
    unfold updateEach
    rw [hturn]
    dsimp only
    rw [hrest]

end Registry

end HotReload
