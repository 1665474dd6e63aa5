import HotReload.Proofs.Registry.Rosters
import HotReload.Proofs.World.Numbers

/-! # The order of scripts on an entity

    The instances on an entity run in the order in which they were made, and nothing
    ever puts them into another order.  So all the order that there is among scripts is
    that of the numbers of their instances.  A list of keys is a *rank* for an entity if
    these numbers rise when the scripts of the keys are gone through in the order of the
    list.

    What is done for the sake of other entities leaves a rank alone.  A script that gets
    a new instance for the entity gets the highest number of all, so it belongs at the
    end of the rank.  This is where a group puts its scripts when it is formed, and it is
    what a reload does to a script: the instance is taken away, and another one is made. -/

namespace HotReload

/-! ## Section 1 - the instance that a script has on an entity -/

namespace Script
variable {s s' : Script} {e e' : Entity} {ref : InstanceRef}

theorem instanceOn_congr (h : s'.attachments = s.attachments) (e : Entity) :
    s'.instanceOn e = s.instanceOn e := by
  rw [instanceOn, instanceOn, h]

theorem mem_of_instanceOn (h : s.instanceOn e = some ref) : ⟨e, ref⟩ ∈ s.attachments := by
  obtain ⟨a, ha, rfl⟩ := Option.map_eq_some_iff.1 h
  obtain rfl : a.entity = e := by simpa using List.find?_some ha
  exact List.mem_of_find?_eq_some ha

theorem instanceOn_of_mem (hs : s.Settled) (h : ⟨e, ref⟩ ∈ s.attachments) : s.instanceOn e = some ref := by
  unfold instanceOn
  cases hfind : s.attachments.find? fun a => a.entity = e with
  | none => simpa using List.find?_eq_none.1 hfind _ h
  | some a =>
    -- an entity has one attachment to a script at most
    have hsame : a = ⟨e, ref⟩ := List.inj_on_of_nodup_map hs.nodup_attached
      (List.mem_of_find?_eq_some hfind) h (by simpa using List.find?_some hfind)
    rw [hsame]
    rfl

theorem instanceOn_of_not_attached (h : e ∉ s.attached) : s.instanceOn e = none := by
  rw [← Option.not_isSome_iff_eq_none, Option.isSome_iff_exists]
  rintro ⟨ref, hon⟩
  exact h (List.mem_map_of_mem (f := Attachment.entity) (mem_of_instanceOn hon))

theorem instanceOn_link (s : Script) (h : e' ≠ e) (ref : InstanceRef) :
    (s.link e' ref).instanceOn e = s.instanceOn e := by
  simp [instanceOn, link, List.find?_append, h]

section calls
variable {η : Type} [Host η]

/-- Whoever else is attached makes no difference to an entity. -/
theorem instanceOn_attach (h : e' ≠ e) (w : Workspace η) (s : Script) :
    (attach w s e').2.1.instanceOn e = s.instanceOn e := by
  rcases attach_cases w s e' with ⟨-, heq⟩ | ⟨-, -, heq⟩ | ⟨-, type, ref, -, -, heq⟩ |
    ⟨-, type, error, line, -, -, heq⟩ <;> rw [heq]
  · dsimp only
    split <;> rfl
  · exact instanceOn_link s h ref

theorem instanceOn_detach (h : e' ≠ e) (w : Workspace η) (s : Script) :
    (detach w s e').2.1.instanceOn e = s.instanceOn e := by
  rcases detach_cases w s e' with ⟨-, heq⟩ | ⟨front, a, back, hsplit, -, ha, heq⟩ <;> rw [heq]
  · rfl
  · have hne : a.entity ≠ e := ha ▸ h
    simp [instanceOn, forget, push, hsplit, List.find?_append, hne]

end calls

section turns
variable {w : Workspace Stage}

/-- An update that takes no instances away leaves everything as it was, but for the signal and the events. -/
theorem instanceOn_update (h : s.reloads w .update = false) (e : Entity) :
    (update w s).2.1.instanceOn e = s.instanceOn e := by
  refine instanceOn_congr ?_ e
  rcases update_cases w s with ⟨hserving, hraised, heq⟩ | ⟨-, heq⟩ <;> rw [heq]
  have hsame : s.isUnchanged (w.readSource s.path) = true := by
    simpa [reloads, hserving, hraised] using h
  have hskipped : s.answered.prepare w = .skipped := if_pos hsame
  dsimp only
  rw [recompile_eq, hskipped]
  rfl

/-- What a reload leaves on an entity has been made by it. -/
theorem le_of_instanceOn_update {others : List Stage.Mark} (h : s.Holds w.host others) (hs : s.Settled)
    (hreloads : s.reloads w .update = true) (hon : (update w s).2.1.instanceOn e = some ref) :
    w.host.nextInstance ≤ ref.id := by
  simp only [reloads, Bool.and_eq_true, Bool.not_eq_true'] at hreloads
  obtain ⟨⟨hserving, hraised⟩, hchanged⟩ := hreloads
  rcases update_cases w s with ⟨-, -, heq⟩ | ⟨hidle, -⟩
  · rw [heq] at hon
    have hanswered : s.answered.Holds w.host others := h.congr rfl rfl rfl
    exact (hanswered.recompile (hs.congr rfl rfl rfl)).2 hchanged _ (mem_of_instanceOn hon)
  · simp [hserving, hraised] at hidle

/-- Whoever is attached for the first time gets a new instance, if any. -/
theorem le_of_instanceOn_attach (hout : e ∉ s.attached) (hon : (attach w s e).2.1.instanceOn e = some ref) :
    w.host.nextInstance ≤ ref.id := by
  have hnone := instanceOn_of_not_attached hout
  rcases attach_cases w s e with ⟨hin, -⟩ | ⟨-, -, heq⟩ | ⟨-, type, ref', -, hr, heq⟩ |
    ⟨-, type, error, line, -, -, heq⟩
  · exact absurd hin hout
  · rw [heq] at hon
    dsimp only at hon
    split at hon <;> exact nomatch hnone.symm.trans hon
  · rw [heq] at hon
    have hmem : ⟨e, ref⟩ ∈ s.attachments ++ [⟨e, ref'⟩] := mem_of_instanceOn hon
    rcases List.mem_append.1 hmem with hold | hnew
    · exact absurd (List.mem_map_of_mem (f := Attachment.entity) hold) hout
    · obtain rfl : ref = ref' := congrArg Attachment.ref (List.mem_singleton.1 hnew)
      have hresult : (w.host.addBehaviour w.context.modules e type).result = .ok ref := hr
      rcases w.host.addBehaviour_cases w.context.modules e type with ⟨-, heq⟩ | ⟨-, fault, printed, -, heq⟩ |
        ⟨-, fields, printed, -, heq⟩ <;> rw [heq] at hresult <;> cases hresult
      exact Nat.le_refl _
  · rw [heq] at hon
    exact nomatch hnone.symm.trans hon

end turns

end Script

namespace Registry

/-! ## Section 2 - what is done for others -/

/-- The instance that the script of a key has on an entity. -/
def instanceOn? (r : Registry) (e : Entity) (k : Path) : Option InstanceRef :=
  (r.script? k).bind fun s => s.instanceOn e

section looking
variable {r : Registry} {e : Entity} {k k' : Path} {ref : InstanceRef}

theorem instanceOn?_congr (h : k.Same k') : r.instanceOn? e k = r.instanceOn? e k' := by
  rw [instanceOn?, instanceOn?, script?, script?, find?_congr r h]

theorem instanceOn?_of_find? {entry : RegistryEntry} (h : r.find? k = some entry) :
    r.instanceOn? e k = entry.script.instanceOn e := by
  simp [instanceOn?, script?, h]

theorem instanceOn?_of_none (h : r.find? k = none) : r.instanceOn? e k = none := by
  simp [instanceOn?, script?, h]

theorem instanceOn?_eq_some (h : r.instanceOn? e k = some ref) :
    ∃ entry, r.find? k = some entry ∧ entry.script.instanceOn e = some ref := by
  obtain ⟨s, hs, hon⟩ := Option.bind_eq_some_iff.1 h
  obtain ⟨entry, hfind, rfl⟩ := script?_eq_some.1 hs
  exact ⟨entry, hfind, hon⟩

/-- Where no roster has an entity, no script has an instance on it. -/
theorem instanceOn?_of_absent (h : ∀ entry ∈ r.entries, e ∉ entry.script.roster) (k : Path) :
    r.instanceOn? e k = none := by
  cases hfind : r.find? k with
  | none => exact instanceOn?_of_none hfind
  | some entry =>
    rw [instanceOn?_of_find? hfind]
    exact Script.instanceOn_of_not_attached fun he => h entry (mem_of_find? hfind) (List.mem_append_left _ he)

end looking

/-- From one registry to another the scripts keep what they have on an entity, and none of them is lost. -/
structure Undisturbed (e : Entity) (r r' : Registry) : Prop where
  same : ∀ k, r'.instanceOn? e k = r.instanceOn? e k
  keys : r.keys ⊆ r'.keys

namespace Undisturbed
variable {e : Entity} {r r' r'' : Registry}

theorem refl (e : Entity) (r : Registry) : r.Undisturbed e r := ⟨fun _ => rfl, List.Subset.refl _⟩

theorem trans (h : r.Undisturbed e r') (h' : r'.Undisturbed e r'') : r.Undisturbed e r'' :=
  ⟨fun k => (h'.same k).trans (h.same k), fun _ hk => h'.keys (h.keys hk)⟩

/-- It is enough that every entry is mapped to one that keeps what it has on the entity. -/
theorem of_find? {f : Path → RegistryEntry → RegistryEntry} (hfind : ∀ k, r'.find? k = (r.find? k).map (f k))
    (hf : ∀ k entry, (f k entry).script.instanceOn e = entry.script.instanceOn e) (hkeys : r'.keys = r.keys) :
    r.Undisturbed e r' where
  same := by
    intro k
    cases hk : r.find? k with
    | none => rw [instanceOn?_of_none hk, instanceOn?_of_none (by rw [hfind, hk]; rfl)]
    | some entry =>
      have hk' : r'.find? k = some (f k entry) := by
        rw [hfind, hk]
        rfl
      rw [instanceOn?_of_find? hk, instanceOn?_of_find? hk', hf]
  keys := hkeys ▸ List.Subset.refl _

theorem setScript {key : Path} {entry : RegistryEntry} (hentry : r.find? key = some entry) {s : Script}
    (hs : s.instanceOn e = entry.script.instanceOn e) : r.Undisturbed e (r.setScript key s) := by
  have hkey : ∀ entry' : RegistryEntry, { entry' with script := s }.key = entry'.key := fun _ => rfl
  refine ⟨fun k => ?_, (keys_modify hkey key).symm ▸ List.Subset.refl _⟩
  unfold instanceOn? script? Registry.setScript
  rw [find?_modify hkey]
  by_cases hk : k.Same key
  · rw [find?_congr r hk, hentry]
    simp [hk, hs]
  · cases r.find? k <;> simp [hk]

theorem visit {η α : Type} {w : Workspace η} {f : Workspace η → Script → Workspace η × Script × α}
    (hf : ∀ s, (f w s).2.1.instanceOn e = s.instanceOn e) (r : Registry) (key : Path) :
    r.Undisturbed e (r.visit w key f).2.1 := by
  refine of_find? (find?_visit w r key f) (fun k entry => ?_) (keys_visit w r key f)
  split
  · exact hf entry.script
  · rfl

theorem release (r : Registry) (f : Files) (identity : String) :
    r.Undisturbed e (r.release f identity).1 := by
  refine of_find? (find?_release r f identity) (fun k entry => ?_) (keys_release r f identity)
  refine Script.instanceOn_congr ?_ e
  split
  · unfold RegistryEntry.released
    split
    · rfl
    · exact (Script.discard_fields entry.script).2.1
  · rfl

/-- A script that is loaded has no instances yet. -/
theorem resolve {η : Type} (w : Workspace η) (r : Registry) (identity : String) :
    r.Undisturbed e (r.resolve w identity).2.1 := by
  unfold Registry.resolve
  dsimp only
  cases hfind : r.find? (r.keyOf w.files identity) with
  | some entry =>
    refine of_find? (find?_modify_of_find? (g := RegistryEntry.taken w) hfind (by intro; rfl) (by rfl))
      (fun k entry' => ?_) (keys_modify (by intro; rfl) _)
    split
    · exact Script.instanceOn_congr (Script.resume_fields w entry'.script).2.2.2.1 e
    · rfl
  | none =>
    dsimp only
    cases hload : Script.load w identity (r.keyOf w.files identity) r.options with
    | mk w' result =>
      cases result with
      | error error => exact .refl e r
      | ok s =>
        obtain ⟨-, ha, -⟩ := Script.load_fields (w := w) (by rw [hload])
        refine ⟨fun k => ?_, fun k hk => ?_⟩
        · cases hk : r.find? k with
          | some entry =>
            rw [instanceOn?_of_find? hk]
            exact instanceOn?_of_find? (by rw [find?_add, hk]; rfl)
          | none =>
            rw [instanceOn?_of_none hk, instanceOn?, script?, find?_add, hk, Option.none_or]
            split
            · exact Script.instanceOn_of_not_attached (by simp [Script.attached, ha])
            · rfl
        · simp only [Registry.keys, List.map_append]
          exact List.mem_append_left _ hk

end Undisturbed

/-- What a script is taken into use under is the key of its entry. -/
theorem mem_keys_of_resolve {η : Type} {w w' : Workspace η} {r r' : Registry} {identity : String} {key : Path}
    (h : r.resolve w identity = (w', r', .ok key)) : key ∈ r'.keys := by
  unfold Registry.resolve at h
  dsimp only at h
  cases hfind : r.find? (r.keyOf w.files identity) with
  | some entry =>
    rw [hfind] at h
    cases h
    rw [keys_modify (by intro; rfl)]
    exact List.mem_map_of_mem (mem_of_find? hfind)
  | none =>
    rw [hfind] at h
    dsimp only at h
    cases hload : Script.load w identity (r.keyOf w.files identity) r.options with
    | mk w₁ result =>
      rw [hload] at h
      cases result with
      | error error => cases h
      | ok s =>
        cases h
        simp [Registry.keys]

/-- Two keys of a registry that are the same are equal. -/
theorem Distinct.eq_of_same {r : Registry} (h : r.Distinct) {k k' : Path} (hk : k ∈ r.keys) (hk' : k' ∈ r.keys)
    (hsame : k.Same k') : k = k' := by
  obtain ⟨entry, hentry, rfl⟩ := List.mem_map.1 hk
  obtain ⟨entry', hentry', rfl⟩ := List.mem_map.1 hk'
  have hfound := h.find?_of_mem hentry
  rw [find?_congr r hsame, h.find?_of_mem hentry'] at hfound
  exact congrArg RegistryEntry.key (Option.some.inj hfound).symm

/-! ## Section 3 - ranks -/

/-- The scripts of a list of keys, gone through in its order, have instances on an entity whose numbers rise. -/
structure Ranked (r : Registry) (e : Entity) (rank : List Path) : Prop where
  nodup : rank.Nodup
  known : rank ⊆ r.keys
  rising : (rank.filterMap (r.instanceOn? e)).Pairwise fun a b => a.id < b.id

/-- Moves a key to the end of a list that it is in. -/
def toBack (rank : List Path) (k : Path) : List Path := if k ∈ rank then rank.erase k ++ [k] else rank

theorem perm_toBack (rank : List Path) (k : Path) : (toBack rank k).Perm rank := by
  unfold toBack
  split
  · next hk => exact List.perm_append_comm.trans (List.perm_cons_erase hk).symm
  · exact .refl rank

theorem perm_foldl_toBack (ks rank : List Path) : (ks.foldl toBack rank).Perm rank := by
  induction ks generalizing rank with
  | nil => exact .refl rank
  | cons k ks ih => exact (ih _).trans (perm_toBack rank k)

/-- What is in none of two lists moves neither. -/
theorem foldl_toBack_of_disjoint {ks rank : List Path} (h : ∀ k ∈ ks, k ∉ rank) : ks.foldl toBack rank = rank := by
  induction ks with
  | nil => rfl
  | cons k ks ih =>
    rw [List.foldl_cons, toBack, if_neg (h k List.mem_cons_self)]
    exact ih fun k' hk' => h k' (List.mem_cons_of_mem k hk')

/-- A key that is at the end of a list stays there as long as no other key of the list is moved. -/
theorem foldl_toBack_of_last {ks front : List Path} {k : Path} (hk : k ∉ front) (hks : ∀ k' ∈ ks, k' ∉ front) :
    ks.foldl toBack (front ++ [k]) = front ++ [k] := by
  induction ks with
  | nil => rfl
  | cons k' ks ih =>
    have hfirst : toBack (front ++ [k]) k' = front ++ [k] := by
      unfold toBack
      split
      · next hmem =>
        obtain rfl : k' = k :=
          List.mem_singleton.1 ((List.mem_append.1 hmem).resolve_left (hks k' List.mem_cons_self))
        rw [List.erase_append_right _ hk, List.erase_cons_head, List.append_nil]
      · rfl
    rw [List.foldl_cons, hfirst]
    exact ih fun k'' hk'' => hks k'' (List.mem_cons_of_mem k' hk'')

/-- A key that is the only one to be moved, once or many times, ends up behind the others, whose order stays. -/
theorem foldl_toBack_of_alone {ks rank : List Path} {k : Path} (hrank : rank.Nodup) (hin : k ∈ rank) (hks : k ∈ ks)
    (halone : ∀ k' ∈ ks, k' ∈ rank → k' = k) : ks.foldl toBack rank = rank.erase k ++ [k] := by
  induction ks with
  | nil => cases hks
  | cons k' ks ih =>
    have halone' : ∀ k'' ∈ ks, k'' ∈ rank → k'' = k := fun k'' hk'' => halone k'' (List.mem_cons_of_mem k' hk'')
    rw [List.foldl_cons, toBack]
    by_cases hmem : k' ∈ rank
    · -- after the first move of the key the later ones find it at the end
      obtain rfl := halone k' List.mem_cons_self hmem
      rw [if_pos hmem]
      refine foldl_toBack_of_last hrank.not_mem_erase fun k'' hk'' hleft => ?_
      obtain rfl := halone' k'' hk'' (List.mem_of_mem_erase hleft)
      exact hrank.not_mem_erase hleft
    · rw [if_neg hmem]
      have hlater : k ∈ ks := (List.mem_cons.1 hks).resolve_left fun heq => hmem (heq ▸ hin)
      exact ih hlater halone'

/-- A list has all the keys under which a cover allows scripts to have an entity. -/
def Spans (cover : Entity → Path → Prop) (e : Entity) (rank : List Path) : Prop :=
  ∀ k, cover e k → ∃ k' ∈ rank, k'.Same k

theorem Spans.perm {cover : Entity → Path → Prop} {e : Entity} {rank rank' : List Path} (h : Spans cover e rank)
    (hperm : rank'.Perm rank) : Spans cover e rank' := by
  intro k hk
  obtain ⟨k', hk', hsame⟩ := h k hk
  exact ⟨k', hperm.mem_iff.2 hk', hsame⟩

namespace Ranked
variable {r r' : Registry} {e : Entity} {rank : List Path}

theorem undisturbed (h : r.Ranked e rank) (hr : r.Undisturbed e r') : r'.Ranked e rank where
  nodup := h.nodup
  known := fun _ hk => hr.keys (h.known hk)
  rising := by
    rw [show r'.instanceOn? e = r.instanceOn? e from funext hr.same]
    exact h.rising

/-- Any list will do for an entity on which no script has an instance. -/
theorem of_none (hnodup : rank.Nodup) (hknown : rank ⊆ r.keys) (hnone : ∀ k, r.instanceOn? e k = none) :
    r.Ranked e rank where
  nodup := hnodup
  known := hknown
  rising := by
    rw [show r.instanceOn? e = fun _ => none from funext hnone, List.filterMap_none]
    exact .nil

/-- A script that has no instance on the entity but a new one belongs at the end. -/
theorem last (h : r.Ranked e rank) (hdistinct : r.Distinct) {n : Nat}
    (hbelow : ∀ k ref, r.instanceOn? e k = some ref → ref.id < n) {key : Path} {entry : RegistryEntry}
    (hentry : r.find? key = some entry) {s : Script} (hnew : ∀ ref, s.instanceOn e = some ref → n ≤ ref.id)
    {rank' : List Path} (hsub : rank'.Sublist rank) (hout : entry.key ∉ rank') :
    (r.setScript key s).Ranked e (rank' ++ [entry.key]) := by
  have hkey : entry.key.Same key := key_of_find? hentry
  have hmem : entry.key ∈ r.keys := List.mem_map_of_mem (mem_of_find? hentry)
  have hfind : ∀ k, (r.setScript key s).find? k =
      (r.find? k).map fun e => if k.Same key then { e with script := s } else e :=
    fun k => find?_modify (by intro; rfl) k key
  have hhere : (r.setScript key s).instanceOn? e entry.key = s.instanceOn e := by
    have hafter : (r.setScript key s).find? entry.key = some { entry with script := s } := by
      rw [hfind, find?_congr r hkey, hentry]
      simp [hkey]
    exact instanceOn?_of_find? hafter
  -- the other scripts of the list are not touched, as their keys differ
  have hothers : rank'.filterMap ((r.setScript key s).instanceOn? e) = rank'.filterMap (r.instanceOn? e) := by
    refine List.filterMap_congr fun k hk => ?_
    have helse : ¬ k.Same key := fun hsame =>
      hout (hdistinct.eq_of_same (h.known (hsub.mem hk)) hmem (hsame.trans hkey.symm) ▸ hk)
    unfold instanceOn? script?
    rw [hfind]
    cases r.find? k <;> simp [helse]
  refine ⟨?_, ?_, ?_⟩
  · exact (h.nodup.sublist hsub).append (List.nodup_singleton _) (by simpa using hout)
  · rw [show (r.setScript key s).keys = r.keys from keys_modify (by intro; rfl) key]
    exact List.append_subset.2 ⟨fun k hk => h.known (hsub.mem hk), by simpa using hmem⟩
  · rw [List.filterMap_append, hothers, List.pairwise_append]
    refine ⟨h.rising.sublist (hsub.filterMap _), ?_, fun a ha b hb => ?_⟩
    · rw [List.filterMap_cons]
      split
      · exact .nil
      · exact List.pairwise_singleton _ _
    · obtain ⟨k, -, hk⟩ := List.mem_filterMap.1 ha
      obtain ⟨k', hk', hb⟩ := List.mem_filterMap.1 hb
      rw [List.mem_singleton.1 hk', hhere] at hb
      exact Nat.lt_of_lt_of_le (hbelow k a hk) (hnew b hb)

end Ranked

/-! ## Section 4 - polls -/

/-- The key of the script that a poll comes to, if this script takes its instances away. -/
def renewedAt (w : Workspace Stage) (r : Registry) (key : Path) : List Path :=
  match r.find? key with
  | some entry => if entry.script.reloads w .update then [entry.key] else []
  | none => []

/-- The keys of all scripts that take their instances away in a poll, in the order in which it comes to them. -/
def renewed (w : Workspace Stage) (r : Registry) : List Path → List Path
  | [] => []
  | key :: keys => r.renewedAt w key ++ renewed (r.update w key).1 (r.update w key).2.1 keys

section polls
variable {start : Stage} {cover : Entity → Path → Prop} {w : Workspace Stage} {r : Registry}

/-- The numbers that scripts have noted down have all been given. -/
theorem Tended.below (h : Tended start cover w r) {e : Entity} {k : Path} {ref : InstanceRef}
    (hon : r.instanceOn? e k = some ref) : ref.id < w.host.nextInstance := by
  obtain ⟨entry, hfind, hin⟩ := instanceOn?_eq_some hon
  have hscript : entry.script ∈ r.scripts := List.mem_map_of_mem (mem_of_find? hfind)
  obtain ⟨m, hm, hid⟩ := List.mem_map.1 (h.linked.id_mem_marks hscript (Script.mem_of_instanceOn hin))
  have hbelow := h.linked.matched.below m (List.mem_flatMap.2 ⟨entry.script, hscript, hm⟩)
  rwa [hid] at hbelow

/-- A script that a list of keys leaves out has nothing to do with the entity. -/
theorem Tended.absent (h : Tended start cover w r) {e : Entity} {rank : List Path} (hr : r.Ranked e rank)
    (hspans : Spans cover e rank) {entry : RegistryEntry} (hentry : entry ∈ r.entries) (hout : entry.key ∉ rank) :
    e ∉ entry.script.roster := by
  intro he
  obtain ⟨k, hk, hsame⟩ := hspans _ (h.covered entry hentry e he)
  exact hout (h.distinct.eq_of_same (hr.known hk) (List.mem_map_of_mem hentry) hsame ▸ hk)

/-- One script answers its changes. -/
theorem Tended.ranked_update (h : Tended start cover w r) {e : Entity} {rank : List Path} (hr : r.Ranked e rank)
    (hspans : Spans cover e rank) (key : Path) :
    (r.update w key).2.1.Ranked e ((r.renewedAt w key).foldl toBack rank) := by
  show (r.visit w key Script.update).2.1.Ranked e _
  unfold renewedAt
  rcases visit_cases w r key Script.update with ⟨hnone, heq⟩ | ⟨s, hs, heq⟩ <;> rw [heq]
  · have hfind : r.find? key = none := by simpa [script?] using hnone
    rw [hfind]
    exact hr
  · obtain ⟨entry, hfind, rfl⟩ := script?_eq_some.1 hs
    have hentry := mem_of_find? hfind
    have hscript : entry.script ∈ r.scripts := List.mem_map_of_mem hentry
    rw [hfind]
    dsimp only
    cases hreloads : entry.script.reloads w .update with
    | true =>
      show Ranked _ e (toBack rank entry.key)
      unfold toBack
      split
      · -- whatever the script has on the entity afterwards was made just now
        obtain ⟨front, back, hsplit⟩ := List.append_of_mem hscript
        exact hr.last h.distinct (fun _ _ => h.below) hfind
          (fun ref => Script.le_of_instanceOn_update (h.linked.holds hsplit) (h.linked.settled _ hscript) hreloads)
          List.erase_sublist hr.nodup.not_mem_erase
      · -- a script that the list leaves out has nothing on the entity, before and afterwards
        next hout =>
          have habsent := h.absent hr hspans hentry hout
          refine hr.undisturbed (.setScript hfind ?_)
          rw [Script.instanceOn_of_not_attached fun he => habsent (List.mem_append_left _ he),
            Script.instanceOn_of_not_attached fun he =>
              habsent (Script.mem_roster_update (List.mem_append_left _ he))]
    | false => exact hr.undisturbed (.setScript hfind (Script.instanceOn_update hreloads e))

/-- A poll moves the scripts that it renews to the end, one after the other. -/
theorem Tended.ranked_updateEach (h : Tended start cover w r) {e : Entity} {rank : List Path}
    (hr : r.Ranked e rank) (hspans : Spans cover e rank) (keys : List Path) :
    (r.updateEach w keys).2.1.Ranked e ((r.renewed w keys).foldl toBack rank) := by
  induction keys generalizing w r rank with
  | nil => exact hr
  | cons key keys ih =>
    have hrest := ih (h.updateEach [key]) (h.ranked_update hr hspans key) (hspans.perm (perm_foldl_toBack _ rank))
    rwa [← List.foldl_append] at hrest

end polls

/-! ## Section 5 - what follows about the stage -/

/-- On an entity that is alive the instances stand in the order of a rank. -/
theorem Ranked.instancesOn {start : Stage} {cover : Entity → Path → Prop} {w : Workspace Stage} {r : Registry}
    (h : Tended start cover w r) (hnumbered : w.host.Numbered) {e : Entity} {rank : List Path}
    (hr : r.Ranked e rank) (hspans : Spans cover e rank) (halive : w.host.world.contains e = true) :
    (w.host.world.instancesOn e).map (fun i => (⟨e, i.id⟩ : InstanceRef)) = rank.filterMap (r.instanceOn? e) := by
  -- Both lists rise, so it is enough that they have the same elements.
  have hrising : ((w.host.world.instancesOn e).map fun i => (⟨e, i.id⟩ : InstanceRef)).Pairwise
      fun a b => a.id < b.id := by
    have := hnumbered.rising e
    rw [World.tagsOn, List.map_map, List.pairwise_map] at this
    exact List.pairwise_map.2 this
  have hdiffer : ∀ {l : List InstanceRef}, (l.Pairwise fun a b => a.id < b.id) → l.Nodup :=
    fun hl => hl.imp fun {a b} hlt (heq : a = b) => Nat.ne_of_lt hlt (congrArg InstanceRef.id heq)
  refine List.Perm.eq_of_pairwise (fun a b _ _ hab hba => absurd hab (Nat.lt_asymm hba)) hrising hr.rising ?_
  refine (List.perm_ext_iff_of_nodup (hdiffer hrising) (hdiffer hr.rising)).2 fun ref => ?_
  rw [List.mem_map, List.mem_filterMap]
  constructor
  · -- every instance is noted down by a script, whose key is in the list
    rintro ⟨i, hi, rfl⟩
    obtain ⟨s, hs, hnoted, -⟩ := h.linked.attachment_of_instance hi
    obtain ⟨entry, hentry, rfl⟩ := List.mem_map.1 hs
    have hon : r.instanceOn? e entry.key = some ⟨e, i.id⟩ :=
      (instanceOn?_of_find? (h.distinct.find?_of_mem hentry)).trans
        (Script.instanceOn_of_mem (h.linked.settled _ hs) hnoted)
    obtain ⟨k, hk, hsame⟩ := hspans _ (h.covered entry hentry e
      (List.mem_append_left _ (List.mem_map_of_mem (f := Attachment.entity) hnoted)))
    exact ⟨k, hk, (instanceOn?_congr hsame).trans hon⟩
  · -- and what is noted down for an entity that is alive is there
    rintro ⟨k, -, hon⟩
    obtain ⟨entry, hfind, hin⟩ := instanceOn?_eq_some hon
    have hscript : entry.script ∈ r.scripts := List.mem_map_of_mem (mem_of_find? hfind)
    have hnoted := Script.mem_of_instanceOn hin
    obtain ⟨i, hi, -⟩ := h.linked.corresponds.attached _ hscript _ hnoted halive
    obtain ⟨hion, hid⟩ := List.mem_filter.1 (hi.symm ▸ List.mem_singleton_self i)
    have hstraight : ref.entity = e := h.linked.straight _ hscript _ hnoted
    refine ⟨i, hion, ?_⟩
    rw [of_decide_eq_true hid, ← hstraight]

end Registry

/-! ## Section 6 - groups -/

namespace ScriptGroup

open Registry (Tended Ranked Undisturbed)

section others
variable {η : Type} [Host η] {e e' : Entity}

/-- A group that is formed for one entity is no matter of another. -/
theorem undisturbed_add (w : Workspace η) (r : Registry) {g : ScriptGroup} (h : g.entity ≠ e) (identity : String) :
    r.Undisturbed e (add w r g identity).2.1 ∧ (add w r g identity).2.2.entity = g.entity := by
  have hresolved := Undisturbed.resolve (e := e) w r identity
  rcases add_cases w r g identity with ⟨error, w', line, hresolve, heq⟩ |
    ⟨w', r', key, hresolve, -, heq⟩ | ⟨w', r', key, hresolve, -, heq⟩ <;>
    rw [heq] <;> rw [hresolve] at hresolved
  · exact ⟨hresolved, rfl⟩
  · exact ⟨hresolved.trans (.release r' w'.files identity), rfl⟩
  · exact ⟨hresolved.trans (.visit (fun s => Script.instanceOn_attach h w' s) r' key), rfl⟩

theorem undisturbed_addEach (w : Workspace η) (r : Registry) {g : ScriptGroup} (h : g.entity ≠ e)
    (identities : List String) : r.Undisturbed e (addEach w r g identities).2.1 := by
  induction identities generalizing w r g with
  | nil => exact .refl e r
  | cons identity rest ih =>
    obtain ⟨hfirst, hentity⟩ := undisturbed_add w r h identity
    exact hfirst.trans (ih _ _ (hentity.symm ▸ h))

/-- Nor is it when one is taken down. -/
theorem undisturbed_releaseEach (h : e' ≠ e) (w : Workspace η) (r : Registry) (scripts : List (String × Path)) :
    r.Undisturbed e (releaseEach w r e' .detachEntity scripts).2 := by
  induction scripts generalizing w r with
  | nil => exact .refl e r
  | cons script rest ih =>
    obtain ⟨identity, key⟩ := script
    rw [releaseEach_cons]
    have hleft : r.Undisturbed e (leave w r e' key .detachEntity).2 :=
      .visit (fun s => Script.instanceOn_detach h w s) r key
    exact (hleft.trans (.release _ _ identity)).trans (ih _ _)

theorem keys_releaseEach (w : Workspace η) (r : Registry) (e : Entity) (scripts : List (String × Path)) :
    (releaseEach w r e .detachEntity scripts).2.keys = r.keys := by
  induction scripts generalizing w r with
  | nil => rfl
  | cons script rest ih =>
    obtain ⟨identity, key⟩ := script
    rw [releaseEach_cons, ih, Registry.keys_release]
    exact Registry.keys_visit w r key _

end others

section own
variable {start : Stage} {base : Entity → Path → Prop} {w : Workspace Stage} {r : Registry} {g : ScriptGroup}

/-- A group takes scripts in at its end, and that is where they belong. -/
theorem ranked_add (h : Tended start (Covers base g) w r) (hbase : ∀ k, ¬ base g.entity k)
    (hr : r.Ranked g.entity g.keys) (identity : String) :
    (add w r g identity).2.1.Ranked g.entity (add w r g identity).2.2.keys := by
  have hresolved := h.resolve identity
  have hundisturbed := Undisturbed.resolve (e := g.entity) w r identity
  rcases add_cases w r g identity with ⟨error, w', line, hresolve, heq⟩ |
    ⟨w', r', key, hresolve, -, heq⟩ | ⟨w', r', key, hresolve, hholds, heq⟩ <;>
    rw [heq] <;> rw [hresolve] at hresolved hundisturbed
  · exact hr.undisturbed hundisturbed
  · exact hr.undisturbed (hundisturbed.trans (.release r' w'.files identity))
  · -- the script is new to the group, so it has had nothing to do with the entity
    obtain ⟨entry, hentry, rfl⟩ := List.mem_map.1 (Registry.mem_keys_of_resolve hresolve)
    have hfind := hresolved.distinct.find?_of_mem hentry
    have hkeys : entry.key ∉ g.keys := fun hin => by
      simp [holds_iff.2 ⟨_, hin, Path.Same.refl _⟩] at hholds
    have hout : g.entity ∉ entry.script.attached := by
      intro hin
      rcases hresolved.covered entry hentry g.entity (List.mem_append_left _ hin) with hother | ⟨-, hown⟩
      · exact hbase _ hother
      · exact nomatch hholds.symm.trans hown
    have hlast := (hr.undisturbed hundisturbed).last hresolved.distinct (fun _ _ => hresolved.below) hfind
      (s := (entry.script.attach w' g.entity).2.1) (fun ref => Script.le_of_instanceOn_attach hout)
      (List.Sublist.refl _) hkeys
    rcases Registry.visit_cases w' r' entry.key fun w s => s.attach w g.entity with ⟨hnone, -⟩ | ⟨s, hs, heq⟩
    · simp [Registry.script?, hfind] at hnone
    · obtain rfl : entry.script = s := by simpa [Registry.script?, hfind] using hs
      rw [heq]
      simpa [keys] using hlast

theorem ranked_addEach (h : Tended start (Covers base g) w r) (hbase : ∀ k, ¬ base g.entity k)
    (hr : r.Ranked g.entity g.keys) (identities : List String) :
    (addEach w r g identities).2.1.Ranked g.entity (addEach w r g identities).2.2.keys := by
  induction identities generalizing w r g with
  | nil => exact hr
  | cons identity rest ih =>
    obtain ⟨hfirst, hentity⟩ := tended_add h identity
    have hrest := ih hfirst (hentity.symm ▸ hbase) (hentity.symm ▸ ranked_add h hbase hr identity)
    rwa [hentity] at hrest

/-- A group that is formed for a new entity lists the scripts in the order of their instances. -/
theorem ranked_form (h : Tended start base w r) {e : Entity} (hbase : ∀ k, ¬ base e k) (identities : List String) :
    (form w r e identities).2.1.Ranked e (form w r e identities).2.2.keys := by
  have hnone : ∀ k, r.instanceOn? e k = none :=
    Registry.instanceOn?_of_absent fun entry hentry he => hbase _ (h.covered entry hentry e he)
  exact ranked_addEach (g := { entity := e }) (h.mono fun _ _ => .inl) hbase
    (.of_none List.nodup_nil (List.nil_subset _) hnone) identities

end own

end ScriptGroup

end HotReload
