import HotReload.Proofs.Script.Roster
import HotReload.Proofs.World.Stage

/-! # What a script keeps track of

    On a stage where others are at work too, a script can lose instances without being
    told: they are removed one by one, or they go with their entities.  What it cannot
    lose is the sight of an instance that is still there.  Every instance of its own is
    one that it has noted down, and has the type that it has by then.

    Which instances are its own is told by a predicate on numbers.  All numbers that have
    not been handed out yet count as its own while it is called, because nobody else gets
    any in the meantime. -/

namespace HotReload

/-! ## Section 1 - stages in good order -/

/-- The numbers on an entity differ, and are smaller than the next one. -/
structure Stage.Orderly (s : Stage) : Prop where
  sound : s.world.Sound
  below : ∀ e, ∀ tag ∈ s.world.tagsOn e, tag.1 < s.nextInstance
  nodup : ∀ e, ((s.world.tagsOn e).map Prod.fst).Nodup

/-- From one stage to another instances go, and others come under new numbers. -/
structure Stage.Leads (s s' : Stage) : Prop where
  orderly : s'.Orderly
  later : s.nextInstance ≤ s'.nextInstance
  tags : ∀ e, ∀ tag ∈ s'.world.tagsOn e, tag ∈ s.world.tagsOn e ∨ s.nextInstance ≤ tag.1

namespace Stage.Leads
variable {s s' s'' : Stage}

theorem refl (h : s.Orderly) : s.Leads s := ⟨h, Nat.le_refl _, fun _ _ htag => .inl htag⟩

theorem trans (h : s.Leads s') (h' : s'.Leads s'') : s.Leads s'' where
  orderly := h'.orderly
  later := Nat.le_trans h.later h'.later
  tags := by
    intro e tag htag
    rcases h'.tags e tag htag with hold | hnew
    · exact h.tags e tag hold
    · exact .inr (Nat.le_trans h.later hnew)

/-- A change by which no instance comes. -/
theorem of_sublist (h : s.Orderly) (hsound : s'.world.Sound) (hnext : s'.nextInstance = s.nextInstance)
    (htags : ∀ e, (s'.world.tagsOn e).Sublist (s.world.tagsOn e)) : s.Leads s' where
  orderly :=
    { sound := hsound
      below := fun e tag htag => hnext ▸ h.below e tag ((htags e).subset htag)
      nodup := fun e => (h.nodup e).sublist ((htags e).map Prod.fst) }
  later := Nat.le_of_eq hnext.symm
  tags := fun e _ htag => .inl ((htags e).subset htag)

/-- It is the world and the next number that count. -/
theorem of_world (h : s.Orderly) (hworld : s'.world = s.world) (hnext : s'.nextInstance = s.nextInstance) :
    s.Leads s' :=
  of_sublist h (hworld ▸ h.sound) hnext fun e => by rw [hworld]

theorem spawnNamed (h : s.Orderly) (name : String) : s.Leads (s.spawnNamed name).1 := by
  refine of_sublist h (h.sound.spawn _ _) rfl fun e => ?_
  show ((s.world.spawn (some name) (some [])).1.tagsOn e).Sublist _
  rw [World.tagsOn_spawn h.sound (some name) rfl e]

theorem despawn (h : s.Orderly) (e : Entity) : s.Leads (s.despawn e).1 := by
  refine of_sublist h (h.sound.despawn e) rfl fun e' => ?_
  show ((s.world.despawn e).1.tagsOn e').Sublist _
  rw [World.tagsOn_despawn h.sound]
  split
  · exact List.nil_sublist _
  · exact List.Sublist.refl _

theorem tick (h : s.Orderly) (modules : ModuleSet) (dt : Float32) : s.Leads (s.tick modules dt).value := by
  have hentity : ∀ b : Being, (b.tick (s.sync modules).engine dt).value.entity = b.entity :=
    fun b => b.tick_entity _ dt
  refine of_sublist h ?_ (s.nextInstance_tick modules dt) fun e => ?_
  · rw [s.world_tick]
    exact h.sound.mapBeings hentity
  · rw [s.world_tick, World.tagsOn_mapBeings hentity (fun b => b.tick_tags _ dt)]

theorem follow (h : s.Orderly) (modules : ModuleSet) : s.Leads (s.follow modules) :=
  of_world h (s.world_follow modules) (s.nextInstance_follow modules)

theorem destroyBehaviour (h : s.Orderly) (r : InstanceRef) : s.Leads (s.destroyBehaviour r).1 := by
  rcases s.destroyBehaviour_cases r with ⟨-, heq⟩ | ⟨-, heq⟩ <;> rw [heq]
  · exact refl h
  · refine of_sublist h (h.sound.removeInstance r) rfl fun e => ?_
    rw [World.tagsOn_removeInstance h.sound]
    split
    · exact List.filter_sublist
    · exact List.Sublist.refl _

theorem addBehaviour (h : s.Orderly) (modules : ModuleSet) (e : Entity) (type : BehaviourType) :
    s.Leads (s.addBehaviour modules e type).host := by
  rcases s.addBehaviour_cases modules e type with ⟨-, heq⟩ | ⟨-, fault, printed, -, heq⟩ |
    ⟨hc, fields, printed, -, heq⟩ <;> rw [heq]
  · exact refl h
  · exact of_world h (s.world_sync modules) (s.nextInstance_sync modules)
  · -- the instance that is made comes last on its entity, and no other has its number
    have htags := World.tagsOn_addInstance h.sound hc ⟨s.nextInstance, type, fields, false⟩
    refine ⟨⟨h.sound.addInstance e _, fun e' tag htag => ?_, fun e' => ?_⟩, Nat.le_succ _, fun e' tag htag => ?_⟩
    · dsimp only at htag ⊢
      rw [htags] at htag
      split at htag
      · rcases List.mem_append.1 htag with hold | hnew
        · exact Nat.lt_succ_of_lt (h.below e' tag hold)
        · rw [List.mem_singleton.1 hnew]
          exact Nat.lt_succ_self _
      · exact Nat.lt_succ_of_lt (h.below e' tag htag)
    · dsimp only
      rw [htags]
      split
      · rw [List.map_append, List.map_singleton]
        refine (h.nodup e').append (List.nodup_singleton _) ?_
        rw [List.disjoint_singleton]
        intro hmem
        obtain ⟨tag, htag, heq⟩ := List.mem_map.1 hmem
        exact Nat.ne_of_lt (h.below e' tag htag) heq
      · exact h.nodup e'
    · dsimp only at htag
      rw [htags] at htag
      split at htag
      · rcases List.mem_append.1 htag with hold | hnew
        · exact .inl hold
        · rw [List.mem_singleton.1 hnew]
          exact .inr (Nat.le_refl _)
      · exact .inl htag

/-- So whatever a script does to a stage leads on from it. -/
theorem lasting (s : Stage) : Script.Lasting s.Leads where
  add := fun _ modules e type h => h.trans (addBehaviour h.orderly modules e type)
  destroy := fun _ r h => h.trans (destroyBehaviour h.orderly r)

end Stage.Leads

theorem Stage.orderly_empty : Stage.Orderly {} where
  sound := World.sound_empty
  below := by
    intro e tag htag
    simp [World.tagsOn, World.instancesOn, World.being?, World.beings] at htag
  nodup := by simp [World.tagsOn, World.instancesOn, World.being?, World.beings]

namespace Script

/-! ## Section 2 - the invariant -/

/-- A script has noted down those of its own instances that are there. -/
structure Tracks (own : Nat → Prop) (stage : Stage) (s : Script) : Prop where
  orderly : stage.Orderly
  /-- Numbers that are still to come are its own. -/
  coming : ∀ id, stage.nextInstance ≤ id → own id
  noted : ∀ e, ∀ tag ∈ stage.world.tagsOn e, own tag.1 →
    ⟨e, ⟨e, tag.1⟩⟩ ∈ s.attachments ∧ s.compiled = some tag.2
  straight : ∀ a ∈ s.attachments, a.ref.entity = a.entity ∧ own a.ref.id ∧ a.ref.id < stage.nextInstance

namespace Tracks
variable {own : Nat → Prop} {stage stage' : Stage} {w : Workspace Stage} {s s' : Script}

/-- The invariant reads two fields. -/
theorem congr (h : s.Tracks own stage) (hc : s'.compiled = s.compiled)
    (ha : s'.attachments = s.attachments) (hstage : stage' = stage) : s'.Tracks own stage' where
  orderly := hstage ▸ h.orderly
  coming := hstage ▸ h.coming
  noted := by rw [hstage, hc, ha]; exact h.noted
  straight := by rw [hstage, ha]; exact h.straight

/-- A script that has nothing of its own on the stage has no need to note anything down. -/
theorem of_nil (horderly : stage.Orderly) (hcoming : ∀ id, stage.nextInstance ≤ id → own id)
    (hnone : ∀ e, ∀ tag ∈ stage.world.tagsOn e, ¬ own tag.1) (ha : s.attachments = []) :
    s.Tracks own stage where
  orderly := horderly
  coming := hcoming
  noted := fun e tag htag hown => absurd hown (hnone e tag htag)
  straight := by simp [ha]

/-- And without notes there is nothing of its own. -/
theorem none_of_nil (h : s.Tracks own stage) (ha : s.attachments = []) :
    ∀ e, ∀ tag ∈ stage.world.tagsOn e, ¬ own tag.1 := by
  intro e tag htag hown
  have hmem := (h.noted e tag htag hown).1
  rw [ha] at hmem
  cases hmem

/-- Others change the stage: what comes by that is not the script's own. -/
theorem leads {own' : Nat → Prop} (h : s.Tracks own stage) (hleads : stage.Leads stage')
    (hold : ∀ id < stage.nextInstance, own' id ↔ own id)
    (hnew : ∀ id, stage.nextInstance ≤ id → id < stage'.nextInstance → ¬ own' id)
    (hcoming : ∀ id, stage'.nextInstance ≤ id → own' id) : s.Tracks own' stage' where
  orderly := hleads.orderly
  coming := hcoming
  noted := by
    intro e tag htag hown
    rcases hleads.tags e tag htag with hthere | hcame
    · exact h.noted e tag hthere ((hold tag.1 (h.orderly.below e tag hthere)).1 hown)
    · exact absurd hown (hnew tag.1 hcame (hleads.orderly.below e tag htag))
  straight := by
    intro a ha
    obtain ⟨hentity, hown, hlt⟩ := h.straight a ha
    exact ⟨hentity, (hold _ hlt).2 hown, Nat.lt_of_lt_of_le hlt hleads.later⟩

/-! ## Section 3 - one instance -/

/-- A request that is refused changes no instance. -/
theorem refused (h : s.Tracks own w.host) {e : Entity} {type : BehaviourType} {error : HostError}
    (hr : (w.addBehaviour e type).2 = .error error) :
    s.Tracks own (w.addBehaviour e type).1.host ∧
      (w.addBehaviour e type).1.host.world = w.host.world ∧
      (w.addBehaviour e type).1.host.nextInstance = w.host.nextInstance := by
  have hhost : (w.addBehaviour e type).1.host = (w.host.addBehaviour w.context.modules e type).host := rfl
  have hresult : (w.host.addBehaviour w.context.modules e type).result = .error error := hr
  have hfields : (w.addBehaviour e type).1.host.world = w.host.world ∧
      (w.addBehaviour e type).1.host.nextInstance = w.host.nextInstance := by
    rw [hhost]
    rcases w.host.addBehaviour_cases w.context.modules e type with ⟨-, heq⟩ | ⟨-, fault, printed, -, heq⟩ |
      ⟨-, fields, printed, -, heq⟩ <;> rw [heq] at hresult ⊢
    · exact ⟨rfl, rfl⟩
    · exact ⟨w.host.world_sync _, w.host.nextInstance_sync _⟩
    · cases hresult
  obtain ⟨hworld, hnext⟩ := hfields
  exact ⟨⟨⟨hworld ▸ h.orderly.sound, hworld ▸ hnext ▸ h.orderly.below, hworld ▸ h.orderly.nodup⟩,
    hnext ▸ h.coming, hworld ▸ h.noted, hnext ▸ h.straight⟩, hworld, hnext⟩

/-- An instance that is made is noted down, and nothing else changes. -/
theorem granted (h : s.Tracks own w.host) {e : Entity} {type : BehaviourType} {ref : InstanceRef}
    (hc : s.compiled = some type) (hr : (w.addBehaviour e type).2 = .ok ref) :
    (s.link e ref).Tracks own (w.addBehaviour e type).1.host := by
  have hleads := Stage.Leads.addBehaviour h.orderly w.context.modules e type
  have hhost : (w.addBehaviour e type).1.host = (w.host.addBehaviour w.context.modules e type).host := rfl
  have hresult : (w.host.addBehaviour w.context.modules e type).result = .ok ref := hr
  rw [hhost]
  rcases w.host.addBehaviour_cases w.context.modules e type with ⟨-, heq⟩ | ⟨-, fault, printed, -, heq⟩ |
    ⟨halive, fields, printed, -, heq⟩ <;> rw [heq] at hresult hleads ⊢ <;> cases hresult
  have hlink : (s.link e ⟨e, w.host.nextInstance⟩).attachments =
      s.attachments ++ [⟨e, ⟨e, w.host.nextInstance⟩⟩] := rfl
  refine ⟨hleads.orderly, fun id hid => h.coming id (Nat.le_trans (Nat.le_succ _) hid), ?_, ?_⟩
  · intro e' tag htag hown
    dsimp only at htag
    rw [World.tagsOn_addInstance h.orderly.sound halive] at htag
    rw [hlink]
    have hbefore : tag ∈ w.host.world.tagsOn e' →
        ⟨e', ⟨e', tag.1⟩⟩ ∈ s.attachments ++ [⟨e, ⟨e, w.host.nextInstance⟩⟩] ∧ s.compiled = some tag.2 := by
      intro htag
      obtain ⟨hmem, htype⟩ := h.noted e' tag htag hown
      exact ⟨List.mem_append_left _ hmem, htype⟩
    split at htag
    · next heq =>
      subst heq
      rcases List.mem_append.1 htag with hold | hnew
      · exact hbefore hold
      · rw [List.mem_singleton.1 hnew]
        exact ⟨List.mem_concat_self, hc⟩
    · exact hbefore htag
  · intro a ha
    rw [hlink] at ha
    rcases List.mem_append.1 ha with hold | hnew
    · obtain ⟨hentity, hown, hlt⟩ := h.straight a hold
      exact ⟨hentity, hown, Nat.lt_succ_of_lt hlt⟩
    · rw [List.mem_singleton.1 hnew]
      exact ⟨rfl, h.coming _ (Nat.le_refl _), Nat.lt_succ_self _⟩

/-- And it is there. -/
theorem mem_of_granted (h : s.Tracks own w.host) {e : Entity} {type : BehaviourType} {ref : InstanceRef}
    (hr : (w.addBehaviour e type).2 = .ok ref) :
    ∃ i ∈ (w.addBehaviour e type).1.host.world.instancesOn e, i.id = ref.id := by
  have hhost : (w.addBehaviour e type).1.host = (w.host.addBehaviour w.context.modules e type).host := rfl
  have hresult : (w.host.addBehaviour w.context.modules e type).result = .ok ref := hr
  rw [hhost]
  rcases w.host.addBehaviour_cases w.context.modules e type with ⟨-, heq⟩ | ⟨-, fault, printed, -, heq⟩ |
    ⟨halive, fields, printed, -, heq⟩ <;> rw [heq] at hresult ⊢ <;> cases hresult
  refine ⟨⟨w.host.nextInstance, type, fields, false⟩, ?_, rfl⟩
  dsimp only
  rw [World.instancesOn_addInstance h.orderly.sound halive, if_pos rfl]
  exact List.mem_concat_self

/-- An attachment is given up together with its instance, if that is still there. -/
theorem removed {front back : List Attachment} {a : Attachment} (h : s.Tracks own w.host)
    (hsplit : s.attachments = front ++ a :: back) (t : Script) (hc : s'.compiled = s.compiled)
    (ha : s'.attachments = front ++ back) : s'.Tracks own (destroyInstance w t a).host := by
  have hhost : (destroyInstance w t a).host = (w.host.destroyBehaviour a.ref).1 := host_destroyInstance w t a
  have hleads := Stage.Leads.destroyBehaviour h.orderly a.ref
  have hnext : (destroyInstance w t a).host.nextInstance = w.host.nextInstance := by
    rw [hhost, Stage.nextInstance_destroyBehaviour]
  refine ⟨hhost ▸ hleads.orderly, hnext ▸ h.coming, ?_, ?_⟩
  · intro e tag htag hown
    rw [hhost] at htag
    have hother : tag ∈ w.host.world.tagsOn e ∧ a ≠ ⟨e, ⟨e, tag.1⟩⟩ := by
      rcases w.host.destroyBehaviour_cases a.ref with ⟨hgone, heq⟩ | ⟨-, heq⟩ <;> rw [heq] at htag
      · refine ⟨htag, ?_⟩
        -- nothing is on an entity that is gone
        rintro rfl
        rw [World.tagsOn_of_not_contains hgone] at htag
        cases htag
      · dsimp only at htag
        rw [World.tagsOn_removeInstance h.orderly.sound] at htag
        split at htag
        · obtain ⟨hmem, hid⟩ := List.mem_filter.1 htag
          refine ⟨hmem, ?_⟩
          rintro rfl
          simp at hid
        · next hne =>
          refine ⟨htag, ?_⟩
          rintro rfl
          exact hne rfl
    obtain ⟨hmem, htype⟩ := h.noted e tag hother.1 hown
    rw [hsplit] at hmem
    rw [hc, ha]
    refine ⟨?_, htype⟩
    rcases List.mem_append.1 hmem with hf | hb
    · exact List.mem_append_left _ hf
    · exact List.mem_append_right _ ((List.mem_cons.1 hb).resolve_left fun heq => hother.2 heq.symm)
  · intro b hb
    rw [hnext]
    refine h.straight b ?_
    rw [ha] at hb
    rw [hsplit]
    rcases List.mem_append.1 hb with hf | hb
    · exact List.mem_append_left _ hf
    · exact List.mem_append_right _ (List.mem_cons_of_mem a hb)

/-! ## Section 4 - calls -/

theorem attach (h : s.Tracks own w.host) (e : Entity) :
    (Script.attach w s e).2.1.Tracks own (Script.attach w s e).1.host := by
  rcases attach_cases w s e with ⟨-, heq⟩ | ⟨-, -, heq⟩ | ⟨-, type, ref, hc, hr, heq⟩ |
    ⟨-, type, error, line, -, hr, heq⟩ <;> rw [heq]
  · exact h
  · split
    · exact h
    · exact h.congr rfl rfl rfl
  · exact (h.granted hc hr).congr rfl rfl rfl
  · exact (h.refused hr).1

theorem attachEach (h : s.Tracks own w.host) (es : List Entity) :
    (Script.attachEach w s es).2.1.Tracks own (Script.attachEach w s es).1.host := by
  induction es generalizing w s with
  | nil => exact h
  | cons e es ih => exact ih (h.attach e)

theorem detach (h : s.Tracks own w.host) (e : Entity) :
    (Script.detach w s e).2.1.Tracks own (Script.detach w s e).1.host := by
  rcases detach_cases w s e with ⟨-, heq⟩ | ⟨front, a, back, hsplit, -, -, heq⟩ <;> rw [heq]
  · exact h.congr rfl rfl rfl
  · exact h.removed hsplit _ rfl rfl

theorem detachEach (h : s.Tracks own w.host) (es : List Entity) :
    (Script.detachEach w s es).2.Tracks own (Script.detachEach w s es).1.host := by
  induction es generalizing w s with
  | nil => exact h
  | cons e es ih => exact ih (h.detach e)

/-- Nothing of a script is left when it has taken all its instances away. -/
theorem strip (h : s.Tracks own w.host) :
    ({ s with attachments := [] } : Script).Tracks own (Script.strip w s).1.host := by
  suffices hall : ∀ (t : Script) (l : List Attachment) (w : Workspace Stage) (s : Script),
      s.attachments = l → s.Tracks own w.host → ({ s with attachments := [] } : Script).Tracks own
        (l.foldl (fun w a => destroyInstance w t a) w).host from
    hall s s.attachments w s rfl h
  intro t l
  induction l with
  | nil => exact fun w s ha h => h.congr rfl ha.symm rfl
  | cons a rest ih =>
    intro w s ha h
    have hfirst : s.attachments = [] ++ a :: rest := ha
    exact ih _ { s with attachments := rest } rfl (h.removed hfirst t rfl rfl)

theorem readd {type : BehaviourType} (h : s.Tracks own w.host) (hc : s.compiled = some type)
    (es : List Entity) : (Script.readd w s type es).2.Tracks own (Script.readd w s type es).1.host := by
  induction es generalizing w s with
  | nil => exact h
  | cons e es ih =>
    cases hr : (w.addBehaviour e type).2 with
    | ok ref =>
      rw [readd_cons_of_ok hr]
      exact ih (h.granted hc hr) hc
    | error error =>
      obtain ⟨line, heq⟩ := readd_cons_of_error hr s es
      have hsaid : s.Tracks own ((w.addBehaviour e type).1.say line).host := (h.refused hr).1
      rw [heq]
      exact ih hsaid hc

theorem recompile (h : s.Tracks own w.host) :
    (Script.recompile w s).2.1.Tracks own (Script.recompile w s).1.host := by
  have hstrip := h.strip
  have hnone := hstrip.none_of_nil rfl
  rw [recompile_eq]
  cases hp : s.prepare w with
  | skipped => exact h.congr rfl rfl rfl
  | failed w' error =>
    have hhost := host_prepare (.inl ⟨error, hp⟩)
    rw [← hhost] at hstrip hnone
    exact .of_nil hstrip.orderly hstrip.coming hnone rfl
  | compiled w' type source =>
    have hhost := host_prepare (.inr ⟨type, source, hp⟩)
    rw [← hhost] at hstrip hnone
    -- the new type starts from a stage that has nothing of the script
    have hready : ({ (Script.strip w s).2 with
        generation := s.generation + 1, compiled := some type, source := some source } : Script).Tracks
          own w'.host :=
      .of_nil hstrip.orderly hstrip.coming hnone rfl
    exact (hready.readd rfl s.roster).congr rfl rfl rfl

/-- Every call keeps track of what is there. -/
theorem call (h : s.Tracks own w.host) (c : Call) :
    (s.call w c).2.Tracks own (s.call w c).1.host := by
  cases c with
  | attach e => exact h.attach e
  | detach e => exact h.detach e
  | detachAll =>
    have hcut : ({ s with suspended := [] } : Script).Tracks own w.host := h.congr rfl rfl rfl
    exact hcut.detachEach s.attached
  | reattach =>
    show (Script.reattach w s).2.1.Tracks own (Script.reattach w s).1.host
    unfold Script.reattach
    split
    · exact h
    · have hcut : ({ s with suspended := [] } : Script).Tracks own w.host := h.congr rfl rfl rfl
      exact hcut.attachEach s.suspended
  | requestReload => exact h.congr rfl rfl rfl
  | update =>
    show (Script.update w s).2.1.Tracks own (Script.update w s).1.host
    rcases update_cases w s with ⟨-, -, heq⟩ | ⟨-, heq⟩ <;> rw [heq]
    · have hanswered : s.answered.Tracks own w.host := h.congr rfl rfl rfl
      exact hanswered.recompile
    · exact h
  | recompile => exact h.recompile
  | discard =>
    obtain ⟨hc, ha, -⟩ := discard_fields s
    exact h.congr hc ha rfl
  | resume =>
    obtain ⟨hhost, -, hc, ha, -⟩ := resume_fields w s
    exact h.congr hc ha hhost

end Tracks

end Script

end HotReload
