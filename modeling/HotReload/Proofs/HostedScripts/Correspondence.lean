import HotReload.Proofs.HostedScripts.Holding
import HotReload.Proofs.Lists

/-! # Scripts and their stage correspond

    In every state that can come about, the attachments of the scripts and the instances
    on the stage are the same, as far as entities are alive.  This is what the scripts
    rely on when they take away the instances of an old type: they take away what they have
    noted down, and never look at the stage.

    The invariant is that every script is settled, and that the marks of all scripts
    together match the stage.  An action touches one script at most, and the marks of
    the others then stand by. -/

namespace HotReload

namespace HostedScripts

/-! ## Section 1 - the invariant -/

/-- All scripts are settled, and hold together what there is on the stage. -/
structure Linked (c : HostedScripts) : Prop where
  settled : ∀ s ∈ c.scripts, s.Settled
  straight : ∀ s ∈ c.scripts, s.Straight
  matched : Matches c.stage (c.scripts.flatMap Script.marks)

theorem linked_fresh (w : Workspace Stage) : (fresh w).Linked where
  settled := by simp [fresh]
  straight := by simp [fresh]
  matched := matches_empty

/-- The place of a script splits the list of all of them. -/
theorem split_at {scripts : List Script} {k : Nat} {s : Script} (h : scripts[k]? = some s) :
    ∃ front back, scripts = front ++ s :: back ∧ ∀ s', scripts.set k s' = front ++ s' :: back := by
  obtain ⟨hk, rfl⟩ := List.getElem?_eq_some_iff.1 h
  refine ⟨scripts.take k, scripts.drop (k + 1), ?_, fun s' => ?_⟩
  · rw [← List.drop_eq_getElem_cons hk, List.take_append_drop]
  · rw [List.set_eq_take_append_cons_drop, if_pos hk]

namespace Linked
variable {c : HostedScripts}

/-- One script holds its part of the marks. -/
theorem holds (h : c.Linked) {s : Script} {front back : List Script}
    (hsplit : c.scripts = front ++ s :: back) :
    s.Holds c.stage (front.flatMap Script.marks ++ back.flatMap Script.marks) where
  straight := h.straight s (by simp [hsplit])
  matched := by
    refine Matches.perm h.matched ?_
    rw [hsplit, List.flatMap_append, List.flatMap_cons, ← List.append_assoc, ← List.append_assoc]
    exact List.perm_append_comm.append_right _

/-- And the other way round: a script may be replaced by one that holds its part. -/
theorem of_holds {s : Script} {w : Workspace Stage} {front back : List Script}
    (hothers : ∀ t ∈ front ++ back, t.Settled ∧ t.Straight) (hs : s.Settled)
    (h : s.Holds w.host (front.flatMap Script.marks ++ back.flatMap Script.marks)) :
    Linked ⟨w, front ++ s :: back⟩ where
  settled := by
    intro t ht
    rcases List.mem_append.1 ht with hf | hb
    · exact (hothers t (List.mem_append_left _ hf)).1
    · rcases List.mem_cons.1 hb with rfl | hb
      · exact hs
      · exact (hothers t (List.mem_append_right _ hb)).1
  straight := by
    intro t ht
    rcases List.mem_append.1 ht with hf | hb
    · exact (hothers t (List.mem_append_left _ hf)).2
    · rcases List.mem_cons.1 hb with rfl | hb
      · exact h.straight
      · exact (hothers t (List.mem_append_right _ hb)).2
  matched := by
    refine Matches.perm h.matched ?_
    rw [List.flatMap_append, List.flatMap_cons, ← List.append_assoc, ← List.append_assoc]
    exact List.perm_append_comm.append_right _

/-- A change of the stage alone. -/
theorem withStage (h : c.Linked) {s : Stage}
    (hs : Matches s (c.scripts.flatMap Script.marks)) : (c.withStage s).Linked where
  settled := h.settled
  straight := h.straight
  matched := hs

/-- Every action keeps scripts and stage together. -/
theorem step (h : c.Linked) (a : Action) : (c.step a).Linked := by
  cases a with
  | edit files => exact ⟨h.settled, h.straight, h.matched⟩
  | lend context => exact ⟨h.settled, h.straight, h.matched⟩
  | delay lapse => exact ⟨h.settled, h.straight, h.matched⟩
  | load identity p options =>
    have hhost := Script.host_load c.workspace identity p options
    cases hload : Script.load c.workspace identity p options with
    | mk w result =>
      rw [hload] at hhost
      have hm : Matches w.host (c.scripts.flatMap Script.marks) := hhost ▸ h.matched
      cases result with
      | error error =>
        rw [step_load_of_error hload]
        exact ⟨h.settled, h.straight, hm⟩
      | ok s =>
        rw [step_load_of_ok hload]
        obtain ⟨⟨type, hc⟩, ha, hs⟩ := Script.load_fields (w := c.workspace) (by rw [hload])
        have hsettled : s.Settled := .of_some hc hs (by simp [Script.attached, ha])
        -- without attachments the new script adds no marks to those of the others
        have hheld : s.Holds w.host (c.scripts.flatMap Script.marks ++ [].flatMap Script.marks) :=
          .of_nil ha (by simpa using hm)
        refine of_holds (fun t ht => ?_) hsettled hheld
        have ht' : t ∈ c.scripts := by simpa using ht
        exact ⟨h.settled t ht', h.straight t ht'⟩
  | call k called =>
    cases hk : c.scripts[k]? with
    | none =>
      rw [step_call_of_none hk]
      exact h
    | some s =>
      -- the call is a matter of this script and its marks, and those of the others stand by
      obtain ⟨front, back, hsplit, hset⟩ := split_at hk
      have hs : s.Settled := h.settled s (by simp [hsplit])
      rw [step_call_of_some hk, hset]
      refine of_holds (fun t ht => ?_) (hs.call c.workspace called) ?_
      · have ht' : t ∈ c.scripts := by
          rw [hsplit]
          rcases List.mem_append.1 ht with hf | hb
          · exact List.mem_append_left _ hf
          · exact List.mem_append_right _ (List.mem_cons_of_mem s hb)
        exact ⟨h.settled t ht', h.straight t ht'⟩
      · exact Script.Holds.call (h.holds hsplit) hs called
  | spawn name => exact h.withStage (h.matched.spawnNamed name)
  | despawn e => exact h.withStage (h.matched.despawn e)
  | tick dt => exact ⟨h.settled, h.straight, h.matched.tick _ dt⟩
  | share => exact h.withStage (h.matched.follow _)

theorem run (h : c.Linked) (actions : List Action) : (c.run actions).Linked :=
  run_induction (fun _ a hc => hc.step a) h actions

end Linked

/-! ## Section 2 - what the invariant says about single instances -/

/-- Whether a script has noted down an attachment, and where. -/
def Records (c : HostedScripts) (k n : Nat) (a : Attachment) : Prop :=
  ∃ s, c.scripts[k]? = some s ∧ s.attachments[n]? = some a

/-- The instances on an entity that a script has noted down. -/
def ownedOn (c : HostedScripts) (s : Script) (e : Entity) : List Instance :=
  (c.instancesOn e).filter fun i => i.id ∈ s.attachments.map fun a => a.ref.id

/-- What the scripts have noted down is what is on the stage, as far as entities are alive. -/
structure Corresponds (c : HostedScripts) : Prop where
  /-- An attachment on a live entity has exactly one instance, of the type of the script. -/
  attached : ∀ s ∈ c.scripts, ∀ a ∈ s.attachments, c.alive a.entity = true →
    ∃ i, (c.instancesOn a.entity).filter (fun i => i.id = a.ref.id) = [i] ∧ s.compiled = some i.type
  /-- An instance is noted down at one place of one script, and nowhere else. -/
  recorded : ∀ e, ∀ i ∈ c.instancesOn e, ∃ k n, c.Records k n ⟨e, ⟨e, i.id⟩⟩ ∧
    ∀ k' n' a, c.Records k' n' a → a.ref.id = i.id → k' = k ∧ n' = n
  /-- No script has two instances on one entity. -/
  single : ∀ s ∈ c.scripts, ∀ e, (c.ownedOn s e).length ≤ 1
  /-- Without a type a script has no instance at all. -/
  idle : ∀ s ∈ c.scripts, s.compiled = none → s.attachments = [] ∧ ∀ e, c.ownedOn s e = []

namespace Linked
variable {c : HostedScripts}

theorem nodup_ids (h : c.Linked) (e : Entity) : ((c.instancesOn e).map Instance.id).Nodup := by
  have hnd := h.matched.nodup_tags e
  rwa [World.tagsOn, List.map_map] at hnd

theorem mem_marks {s : Script} (hs : s ∈ c.scripts) {a : Attachment} (ha : a ∈ s.attachments)
    {type : BehaviourType} (hc : s.compiled = some type) :
    Script.markOf type a ∈ c.scripts.flatMap Script.marks := by
  rw [List.mem_flatMap]
  refine ⟨s, hs, ?_⟩
  rw [Script.marks_of_some hc]
  exact List.mem_map_of_mem ha

/-- The mark of an instance is that of an attachment. -/
theorem attachment_of_instance (h : c.Linked) {e : Entity} {i : Instance} (hi : i ∈ c.instancesOn e) :
    ∃ s ∈ c.scripts, ⟨e, ⟨e, i.id⟩⟩ ∈ s.attachments ∧ s.compiled = some i.type := by
  have htag : (i.id, i.type) ∈ c.stage.world.tagsOn e := List.mem_map_of_mem hi
  obtain ⟨m, hm, hme, hmi⟩ := h.matched.mem_of_tag htag
  obtain ⟨s, hs, hms⟩ := List.mem_flatMap.1 hm
  refine ⟨s, hs, ?_⟩
  cases hc : s.compiled with
  | none => simp [Script.marks_of_none hc] at hms
  | some type =>
    rw [Script.marks_of_some hc] at hms
    obtain ⟨a, ha, rfl⟩ := List.mem_map.1 hms
    -- a mark and the instance it belongs to agree in number, type and entity
    have hid : a.ref.id = i.id := congrArg Prod.fst hmi
    have htype : type = i.type := congrArg Prod.snd hmi
    have hae : a.entity = e := hme
    have href : a.ref.entity = e := (h.straight s hs a ha).trans hae
    obtain ⟨entity, ref, id⟩ := a
    simp only at hid hae href
    subst hid hae href
    exact ⟨ha, by rw [htype]⟩

/-- The number of an attachment is that of a mark. -/
theorem id_mem_marks (h : c.Linked) {s : Script} (hs : s ∈ c.scripts) {a : Attachment}
    (ha : a ∈ s.attachments) : a.ref.id ∈ s.marks.map Stage.Mark.id := by
  obtain ⟨type, hc⟩ := (h.settled s hs).compiled_of_mem ha
  rw [Script.marks_of_some hc, List.map_map]
  exact List.mem_map_of_mem ha

/-- The numbers of the marks of all scripts differ, within a script and from one to another. -/
theorem ids_apart (h : c.Linked) : (∀ s ∈ c.scripts, (s.marks.map Stage.Mark.id).Nodup) ∧
    c.scripts.Pairwise fun s t => (s.marks.map Stage.Mark.id).Disjoint (t.marks.map Stage.Mark.id) := by
  have hids := h.matched.ids
  rwa [List.map_flatMap, List.nodup_flatMap] at hids

/-- An attachment has its number to itself among those of its script. -/
theorem attachment_ids (h : c.Linked) {s : Script} (hs : s ∈ c.scripts) :
    (s.attachments.map fun a => a.ref.id).Nodup := by
  have hnd := h.ids_apart.1 s hs
  cases hc : s.compiled with
  | none => simp [(h.settled s hs).waiting hc]
  | some type => rwa [Script.marks_of_some hc, List.map_map] at hnd

/-- Scripts at different places have no number in common. -/
theorem script_unique (h : c.Linked) {k k' : Nat} {s s' : Script} (hk : c.scripts[k]? = some s)
    (hk' : c.scripts[k']? = some s') {id : Nat} (hmem : id ∈ s.marks.map Stage.Mark.id)
    (hmem' : id ∈ s'.marks.map Stage.Mark.id) : k = k' := by
  obtain ⟨hlt, rfl⟩ := List.getElem?_eq_some_iff.1 hk
  obtain ⟨hlt', rfl⟩ := List.getElem?_eq_some_iff.1 hk'
  rcases Nat.lt_trichotomy k k' with hless | heq | hmore
  · exact absurd hmem' (List.pairwise_iff_getElem.1 h.ids_apart.2 k k' hlt hlt' hless hmem)
  · exact heq
  · exact absurd hmem (List.pairwise_iff_getElem.1 h.ids_apart.2 k' k hlt' hlt hmore hmem')

/-- A number is noted down at one place at most. -/
theorem place_unique (h : c.Linked) {k n k' n' : Nat} {a a' : Attachment} (hr : c.Records k n a)
    (hr' : c.Records k' n' a') (hid : a.ref.id = a'.ref.id) : k = k' ∧ n = n' := by
  obtain ⟨s, hs, ha⟩ := hr
  obtain ⟨s', hs', ha'⟩ := hr'
  have hmem := h.id_mem_marks (List.mem_of_getElem? hs) (List.mem_of_getElem? ha)
  have hmem' := h.id_mem_marks (List.mem_of_getElem? hs') (List.mem_of_getElem? ha')
  have hk : k = k' := h.script_unique hs hs' hmem (hid ▸ hmem')
  subst hk
  rw [hs] at hs'
  cases hs'
  refine ⟨rfl, ?_⟩
  -- within one script the numbers decide the place
  have hnd := h.attachment_ids (List.mem_of_getElem? hs)
  have hplace : (s.attachments.map fun a => a.ref.id)[n]? = (s.attachments.map fun a => a.ref.id)[n']? := by
    rw [List.getElem?_map, List.getElem?_map, ha, ha']
    exact congrArg some hid
  have hlt : n < (s.attachments.map fun a => a.ref.id).length := by
    rw [List.length_map]
    exact (List.getElem?_eq_some_iff.1 ha).1
  exact (List.getElem?_inj hlt hnd).1 hplace

/-- An instance with the number of an attachment stands on its entity, and has the type of its script. -/
theorem instance_of_attachment (h : c.Linked) {s : Script} (hs : s ∈ c.scripts) {a : Attachment}
    (ha : a ∈ s.attachments) {e : Entity} {i : Instance} (hi : i ∈ c.instancesOn e)
    (hid : i.id = a.ref.id) : a.entity = e ∧ s.compiled = some i.type := by
  obtain ⟨type, hc⟩ := (h.settled s hs).compiled_of_mem ha
  obtain ⟨s', hs', ha', hc'⟩ := h.attachment_of_instance hi
  have heq := h.matched.eq_of_id (mem_marks hs ha hc) (mem_marks hs' ha' hc') hid.symm
  have hentity : a.entity = e := congrArg Stage.Mark.entity heq
  have htype : type = i.type := congrArg Stage.Mark.type heq
  exact ⟨hentity, hc.trans (congrArg some htype)⟩

theorem corresponds (h : c.Linked) : c.Corresponds where
  attached := by
    intro s hs a ha halive
    obtain ⟨type, hc⟩ := (h.settled s hs).compiled_of_mem ha
    obtain ⟨i, hi, htag⟩ := List.mem_map.1 (h.matched.tag_of_mem (mem_marks hs ha hc) halive)
    have hid : i.id = a.ref.id := congrArg Prod.fst htag
    have htype : i.type = type := congrArg Prod.snd htag
    refine ⟨i, ?_, by rw [hc, htype]⟩
    rw [← hid]
    exact filter_eq_singleton (h.nodup_ids a.entity) hi
  recorded := by
    intro e i hi
    obtain ⟨s, hs, ha, -⟩ := h.attachment_of_instance hi
    obtain ⟨k, hk⟩ := List.mem_iff_getElem?.1 hs
    obtain ⟨n, hn⟩ := List.mem_iff_getElem?.1 ha
    refine ⟨k, n, ⟨s, hk, hn⟩, ?_⟩
    intro k' n' a hr hid
    exact h.place_unique hr ⟨s, hk, hn⟩ hid
  single := by
    intro s hs e
    refine length_le_one ((h.nodup_ids e).sublist (List.filter_sublist.map _)) ?_
    -- both are noted down for this entity, and the script has one attachment to it at most
    have hkey : ∀ i ∈ c.ownedOn s e, ∃ a ∈ s.attachments, a.entity = e ∧ a.ref.id = i.id := by
      intro i hi
      obtain ⟨hon, howned⟩ := List.mem_filter.1 hi
      obtain ⟨a, ha, hid⟩ := List.mem_map.1 (of_decide_eq_true howned)
      exact ⟨a, ha, (h.instance_of_attachment hs ha hon hid.symm).1, hid⟩
    intro i hi j hj
    obtain ⟨a, ha, hae, hai⟩ := hkey i hi
    obtain ⟨b, hb, hbe, hbj⟩ := hkey j hj
    have hab : a = b := List.inj_on_of_nodup_map (h.settled s hs).nodup_attached ha hb (hae.trans hbe.symm)
    rw [← hai, ← hbj, hab]
  idle := by
    intro s hs hc
    have hnil := (h.settled s hs).waiting hc
    exact ⟨hnil, fun e => by simp [ownedOn, hnil]⟩

/-- An instance that belongs to an attachment is the only one that the script has there. -/
theorem ownedOn_eq_singleton (h : c.Linked) {s : Script} (hs : s ∈ c.scripts) {a : Attachment}
    (ha : a ∈ s.attachments) {i : Instance} (hi : i ∈ c.instancesOn a.entity) (hid : i.id = a.ref.id) :
    c.ownedOn s a.entity = [i] := by
  have howned : i ∈ c.ownedOn s a.entity := by
    refine List.mem_filter.2 ⟨hi, decide_eq_true ?_⟩
    rw [hid]
    exact List.mem_map_of_mem ha
  have hone := h.corresponds.single s hs a.entity
  obtain ⟨j, hj⟩ := List.length_eq_one_iff.1 (Nat.le_antisymm hone (List.length_pos_of_mem howned))
  rw [hj] at howned ⊢
  rw [List.mem_singleton.1 howned]

end Linked

/-! ## Section 3 - the main theorem -/

/-- Whatever happens from the beginning, the attachments of the scripts and the instances on
    the stage correspond.  And a reload, whether it succeeds or fails, leaves on the whole stage none of
    the instances that the script had before. -/
theorem run_corresponds (w : Workspace Stage) (actions : List Action) :
    ((fresh w).run actions).Corresponds ∧
    ∀ k s called, ((fresh w).run actions).scripts[k]? = some s →
      s.reloads ((fresh w).run actions).workspace called = true →
      ∀ a ∈ s.attachments, ∀ e, ∀ i ∈ ((fresh w).run (actions ++ [.call k called])).instancesOn e,
        i.id ≠ a.ref.id := by
  have h : ((fresh w).run actions).Linked := (linked_fresh w).run actions
  refine ⟨h.corresponds, ?_⟩
  intro k s called hk hreload a ha e i hi
  obtain ⟨front, back, hsplit, -⟩ := split_at hk
  have hs : s.Settled := h.settled s (List.mem_of_getElem? hk)
  rw [run_append, run_cons, run_nil, step_call_of_some hk] at hi
  have htag := List.mem_map_of_mem (f := fun i : Instance => (i.id, i.type)) hi
  exact (h.holds hsplit).reload_gone hs hreload ha htag

end HostedScripts

end HotReload
