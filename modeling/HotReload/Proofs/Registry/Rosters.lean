import HotReload.Proofs.Registry.GroupSession
import HotReload.Proofs.HostedScripts.Correspondence
import HotReload.Proofs.Lists

/-! # The rosters of a registry

    Three structures know of entities: the scripts of a registry, the groups that have
    taken the scripts into use, and the world.  Only groups bring entities to scripts,
    and take them away again.  So there is a bound on what the rosters of the scripts
    hold, which is called a *cover* here: it says which entity may be in the roster of
    the script of which key.

    Every operation of a registry is described by the cover that it leads to.  While a
    group is formed the cover grows by what the group holds so far; while it is taken
    down the cover shrinks, script by script; and everything else keeps it.  Nobody comes
    to life or dies by any of that. -/

namespace HotReload

/-! ## Section 1 - who is alive -/

/-- The same entities are alive on two stages, and the later one has handed out all that the other had. -/
structure Stage.SamePeople (s s' : Stage) : Prop where
  sound : s'.world.Sound
  alive : ∀ e, s'.world.contains e = s.world.contains e
  issued : ∀ e, s.world.Issued e → s'.world.Issued e

namespace Stage.SamePeople
variable {s s' s'' : Stage}

theorem refl (h : s.world.Sound) : s.SamePeople s := ⟨h, fun _ => rfl, fun _ => id⟩

theorem trans (h : s.SamePeople s') (h' : s'.SamePeople s'') : s.SamePeople s'' where
  sound := h'.sound
  alive := fun e => (h'.alive e).trans (h.alive e)
  issued := fun e he => h'.issued e (h.issued e he)

theorem addBehaviour (h : s.world.Sound) (modules : ModuleSet) (e : Entity) (type : BehaviourType) :
    s.SamePeople (s.addBehaviour modules e type).host where
  sound := sound_addBehaviour h modules e type
  alive := contains_addBehaviour h modules e type
  issued := by
    intro e' he'
    rcases s.addBehaviour_cases modules e type with ⟨-, heq⟩ | ⟨-, fault, printed, -, heq⟩ |
      ⟨-, fields, printed, -, heq⟩ <;> rw [heq]
    · exact he'
    · show (s.sync modules).world.Issued e'
      rw [world_sync]
      exact he'
    · exact he'.addInstance _

theorem destroyBehaviour (h : s.world.Sound) (r : InstanceRef) : s.SamePeople (s.destroyBehaviour r).1 where
  sound := sound_destroyBehaviour h r
  alive := contains_destroyBehaviour s r
  issued := by
    intro e he
    rcases s.destroyBehaviour_cases r with ⟨-, heq⟩ | ⟨-, heq⟩ <;> rw [heq]
    · exact he
    · exact he.removeInstance r

/-- Scripts only make and remove instances, so they do not change who is alive. -/
theorem lasting (s : Stage) : Script.Lasting s.SamePeople where
  add := fun _ modules e type h => h.trans (addBehaviour h.sound modules e type)
  destroy := fun _ r h => h.trans (destroyBehaviour h.sound r)

end Stage.SamePeople

namespace Script

/-! ## Section 2 - what calls add to a roster -/

section rosters
variable {η : Type} [Host η]

theorem mem_roster_attach {w : Workspace η} {s : Script} {e e' : Entity}
    (h : e' ∈ (attach w s e).2.1.roster) : e' ∈ s.roster ∨ e' = e := by
  rcases attach_cases w s e with ⟨-, heq⟩ | ⟨-, -, heq⟩ | ⟨-, type, ref, -, -, heq⟩ |
    ⟨-, type, error, line, -, -, heq⟩ <;> rw [heq] at h
  · exact .inl h
  · dsimp only at h
    split at h
    · exact .inl h
    · have hmem : e' ∈ s.attached ++ (s.suspended ++ [e]) := h
      rw [← List.append_assoc] at hmem
      exact (List.mem_append.1 hmem).imp_right List.mem_singleton.1
  · have hmem : e' ∈ (s.attached ++ [e]) ++ s.suspended := by
      rw [← attached_link s e ref]
      exact h
    rcases List.mem_append.1 hmem with hatt | hsus
    · exact (List.mem_append.1 hatt).imp (List.mem_append_left _) List.mem_singleton.1
    · exact .inl (List.mem_append_right _ hsus)
  · exact .inl h

theorem mem_roster_update {w : Workspace η} {s : Script} {e : Entity}
    (h : e ∈ (update w s).2.1.roster) : e ∈ s.roster := by
  rcases update_cases w s with ⟨-, -, heq⟩ | ⟨-, heq⟩ <;> rw [heq] at h
  · dsimp only at h
    rw [roster_recompile] at h
    exact (kept_sublist w s.answered s.answered.roster).subset h
  · exact h

end rosters

end Script

namespace HostedScripts.Linked

/-- A call of a script whose place among the others is known. -/
theorem call_at {w : Workspace Stage} {front back : List Script} {s : Script}
    (h : Linked ⟨w, front ++ s :: back⟩) (called : Script.Call) :
    Linked ⟨(s.call w called).1, front ++ (s.call w called).2 :: back⟩ := by
  have hstep := h.step (.call front.length called)
  rw [step_call_of_some (s := s) (by simp)] at hstep
  simpa using hstep

/-- A change of all scripts that is no matter of instances, and of the workspace beside the stage. -/
theorem map {w w' : Workspace Stage} {scripts : List Script} {f : Script → Script}
    (h : Linked ⟨w, scripts⟩) (hhost : w'.host = w.host)
    (hf : ∀ s, (f s).compiled = s.compiled ∧ (f s).attachments = s.attachments ∧ (f s).suspended = s.suspended) :
    Linked ⟨w', scripts.map f⟩ where
  settled := by
    intro t ht
    obtain ⟨s, hs, rfl⟩ := List.mem_map.1 ht
    exact (h.settled s hs).congr (hf s).1 (hf s).2.1 (hf s).2.2
  straight := by
    intro t ht
    obtain ⟨s, hs, rfl⟩ := List.mem_map.1 ht
    have hstraight := h.straight s hs
    unfold Script.Straight at hstraight ⊢
    rwa [(hf s).2.1]
  matched := by
    have hmarks : (scripts.map f).flatMap Script.marks = scripts.flatMap Script.marks := by
      rw [List.flatMap_map]
      exact congrArg scripts.flatMap (funext fun s => Script.marks_congr (hf s).1 (hf s).2.1)
    show Matches w'.host ((scripts.map f).flatMap Script.marks)
    rw [hmarks, hhost]
    exact h.matched

/-- A change of the workspace beside the stage. -/
theorem workspace {w w' : Workspace Stage} {scripts : List Script} (h : Linked ⟨w, scripts⟩)
    (hhost : w'.host = w.host) : Linked ⟨w', scripts⟩ := by
  simpa using h.map (f := id) hhost fun _ => ⟨rfl, rfl, rfl⟩

end HostedScripts.Linked

namespace Registry

/-! ## Section 3 - covers -/

/-- The scripts of a registry, oldest first. -/
def scripts (r : Registry) : List Script := r.entries.map RegistryEntry.script

/-- An entry that is found is the only one that is changed under its key. -/
theorem modify_split {r : Registry} (h : r.Distinct) {key : Path} {entry : RegistryEntry}
    (he : r.find? key = some entry) :
    ∃ front back, r.entries = front ++ entry :: back ∧ (∀ b ∈ front ++ back, ¬ b.key.Same key) ∧
      ∀ f, (r.modify key f).entries = front ++ f entry :: back := by
  obtain ⟨front, back, hsplit⟩ := List.append_of_mem (mem_of_find? he)
  have hsame := key_of_find? he
  unfold Distinct keys at h
  rw [hsplit, List.map_append, List.map_cons, List.pairwise_append, List.pairwise_cons] at h
  obtain ⟨-, ⟨hback, -⟩, hfront⟩ := h
  have hothers : ∀ b ∈ front ++ back, ¬ b.key.Same key := by
    intro b hb hb'
    rcases List.mem_append.1 hb with hf | hb
    · exact hfront b.key (List.mem_map_of_mem hf) entry.key List.mem_cons_self (hb'.trans hsame.symm)
    · exact hback b.key (List.mem_map_of_mem hb) (hsame.trans hb'.symm)
  refine ⟨front, back, hsplit, hothers, fun f => ?_⟩
  have hid : ∀ l : List RegistryEntry, (∀ b ∈ l, ¬ b.key.Same key) →
      l.map (fun e => if e.key.Same key then f e else e) = l := by
    intro l hl
    refine (List.map_congr_left fun b hb => ?_).trans (List.map_id l)
    exact if_neg (hl b hb)
  show r.entries.map _ = _
  rw [hsplit, List.map_append, List.map_cons, if_pos hsame,
    hid front fun b hb => hothers b (List.mem_append_left _ hb),
    hid back fun b hb => hothers b (List.mem_append_right _ hb)]

/-- The scripts of a registry hold what is on the stage, the entities in their rosters are covered, and those
    alive are the same as on a stage before. -/
structure Tended (start : Stage) (cover : Entity → Path → Prop) (w : Workspace Stage) (r : Registry) : Prop where
  linked : HostedScripts.Linked ⟨w, r.scripts⟩
  distinct : r.Distinct
  people : start.SamePeople w.host
  covered : ∀ entry ∈ r.entries, ∀ e ∈ entry.script.roster, cover e entry.key

namespace Tended
variable {start : Stage} {cover cover' : Entity → Path → Prop} {w w' : Workspace Stage} {r : Registry}
  {key : Path}

theorem mono (h : Tended start cover w r) (hcover : ∀ e k, cover e k → cover' e k) :
    Tended start cover' w r :=
  ⟨h.linked, h.distinct, h.people, fun entry hentry e he => hcover e _ (h.covered entry hentry e he)⟩

/-- The stage as it is now is as good a beginning as any other. -/
theorem anew (h : Tended start cover w r) : Tended w.host cover w r :=
  ⟨h.linked, h.distinct, .refl h.people.sound, h.covered⟩

theorem workspace (h : Tended start cover w r) (hhost : w'.host = w.host) : Tended start cover w' r :=
  ⟨h.linked.workspace hhost, h.distinct, hhost ▸ h.people, h.covered⟩

/-- A change of all scripts that is no matter of entities. -/
theorem map (h : Tended start cover w r) {w' : Workspace Stage} (hhost : w'.host = w.host) (f : Script → Script)
    (hf : ∀ s, (f s).compiled = s.compiled ∧ (f s).attachments = s.attachments ∧ (f s).suspended = s.suspended) :
    Tended start cover w' { r with entries := r.entries.map fun e => { e with script := f e.script } } where
  linked := by
    have hscripts : scripts { r with entries := r.entries.map fun e => { e with script := f e.script } } =
        r.scripts.map f := by
      simp [scripts]
    rw [hscripts]
    exact h.linked.map hhost hf
  distinct := h.distinct.of_keys (keys_map fun _ => rfl)
  people := hhost ▸ h.people
  covered := by
    intro entry hentry e he
    obtain ⟨old, hold, rfl⟩ := List.mem_map.1 hentry
    refine h.covered old hold e ?_
    unfold Script.roster Script.attached at he ⊢
    rwa [(hf old.script).2.1, (hf old.script).2.2] at he

/-- A change of one entry, by which the rosters of the others are not touched. -/
theorem modify (h : Tended start cover w r) {entry : RegistryEntry} (he : r.find? key = some entry)
    {f : RegistryEntry → RegistryEntry} (hkey : ∀ e, (f e).key = e.key) (hpeople : start.SamePeople w'.host)
    (hlinked : ∀ front back, HostedScripts.Linked ⟨w, front ++ entry.script :: back⟩ →
      HostedScripts.Linked ⟨w', front ++ (f entry).script :: back⟩)
    (hroster : ∀ e ∈ (f entry).script.roster, cover' e entry.key)
    (hother : ∀ e k, ¬ k.Same key → cover e k → cover' e k) : Tended start cover' w' (r.modify key f) := by
  obtain ⟨front, back, hsplit, hothers, hmodify⟩ := modify_split h.distinct he
  have hscripts : r.scripts = front.map RegistryEntry.script ++ entry.script :: back.map RegistryEntry.script := by
    simp [scripts, hsplit]
  refine ⟨?_, h.distinct.of_keys (keys_modify hkey key), hpeople, ?_⟩
  · have hafter : (r.modify key f).scripts =
        front.map RegistryEntry.script ++ (f entry).script :: back.map RegistryEntry.script := by
      simp [scripts, hmodify]
    rw [hafter]
    exact hlinked _ _ (hscripts ▸ h.linked)
  · intro entry' hentry' e he'
    rw [hmodify] at hentry'
    rcases mem_split.1 hentry' with rfl | hold
    · rw [hkey]
      exact hroster e he'
    · refine hother e _ (hothers entry' hold) (h.covered entry' ?_ e he')
      rw [hsplit]
      exact mem_split.2 (.inr hold)

/-! ## Section 4 - operations of a registry -/

/-- A script that has just been loaded is in use without any entities. -/
theorem load (h : Tended start cover w r) {identity : String} {s : Script}
    (hload : Script.load w identity key r.options = (w', .ok s))
    (hdistinct : Distinct { r with entries := r.entries ++ [{ key, identity, script := s }] }) :
    Tended start cover w' { r with entries := r.entries ++ [{ key, identity, script := s }] } := by
  have hhost := Script.host_load w identity key r.options
  have hlinked := h.linked.step (.load identity key r.options)
  have hstep : HostedScripts.step ⟨w, r.scripts⟩ (.load identity key r.options) = ⟨w', r.scripts ++ [s]⟩ :=
    HostedScripts.step_load_of_ok hload
  rw [hload] at hhost
  rw [hstep] at hlinked
  obtain ⟨-, ha, hs⟩ := Script.load_fields (by rw [hload])
  refine ⟨?_, hdistinct, by rw [hhost]; exact h.people, ?_⟩
  · simpa [scripts] using hlinked
  · intro entry hentry e he
    rcases List.mem_append.1 hentry with hold | hnew
    · exact h.covered entry hold e he
    · rw [List.mem_singleton.1 hnew] at he
      simp [Script.roster, Script.attached, ha, hs] at he

/-- To take a script into use is no matter of entities, even if the script has to be loaded. -/
theorem resolve (h : Tended start cover w r) (identity : String) :
    Tended start cover (r.resolve w identity).1 (r.resolve w identity).2.1 := by
  cases hfind : r.find? (r.keyOf w.files identity) with
  | some entry =>
    obtain ⟨hhost, -, -, ha, hs⟩ := Script.resume_fields w entry.script
    have hroster : (entry.script.resume w).2.roster = entry.script.roster := by
      simp [Script.roster, Script.attached, ha, hs]
    have hresolve : r.resolve w identity = ((entry.script.resume w).1,
        r.modify (r.keyOf w.files identity) fun e => { e with script := (entry.script.resume w).2, users := e.users + 1 },
        .ok entry.key) := by
      simp only [Registry.resolve, hfind]
    rw [hresolve]
    refine h.modify hfind (by intro; rfl) (by rw [hhost]; exact h.people)
      (fun _ _ hlinked => hlinked.call_at .resume) (fun e he => ?_) (fun _ _ _ => id)
    exact h.covered entry (mem_of_find? hfind) e (hroster ▸ he)
  | none =>
    have hhost := Script.host_load w identity (r.keyOf w.files identity) r.options
    have hdistinct := h.distinct.resolve w identity
    cases hload : Script.load w identity (r.keyOf w.files identity) r.options with
    | mk w' result =>
      rw [hload] at hhost
      cases result with
      | error error =>
        have hresolve : r.resolve w identity = (w', r, .error error) := by simp only [Registry.resolve, hfind, hload]
        rw [hresolve]
        exact h.workspace hhost
      | ok s =>
        have hresolve : r.resolve w identity = (w',
            { r with entries := r.entries ++ [{ key := r.keyOf w.files identity, identity, script := s }] },
            .ok (r.keyOf w.files identity)) := by
          simp only [Registry.resolve, hfind, hload]
        rw [hresolve] at hdistinct ⊢
        exact h.load hload hdistinct

/-- Nor is it to give a script up. -/
theorem release (h : Tended start cover w r) (f : Files) (identity : String) :
    Tended start cover w (r.release f identity).1 := by
  unfold Registry.release
  dsimp only
  cases hfind : r.find? (r.keyOf f identity) with
  | none => exact h
  | some entry =>
    have hcovered := h.covered entry (mem_of_find? hfind)
    dsimp only
    split
    · exact h.modify hfind (by intro; rfl) h.people (fun _ _ hlinked => hlinked) hcovered (fun _ _ _ => id)
    · obtain ⟨-, ha, hs⟩ := Script.discard_fields entry.script
      refine h.modify hfind (by intro; rfl) h.people (fun _ _ hlinked => hlinked.call_at .discard)
        (fun e he => hcovered e ?_) (fun _ _ _ => id)
      have hroster : entry.script.discard.roster = entry.script.roster := by
        simp [Script.roster, Script.attached, ha, hs]
      exact hroster ▸ he

/-- What a visit makes of the roster of one script is all that it changes about entities. -/
theorem visit {α : Type} (h : Tended start cover w r) (key : Path) (called : Script.Call)
    {f : Workspace Stage → Script → Workspace Stage × Script × α}
    (hf : ∀ s, (f w s).1 = (s.call w called).1 ∧ (f w s).2.1 = (s.call w called).2)
    (hroster : ∀ entry ∈ r.entries, entry.key.Same key → ∀ e ∈ (entry.script.call w called).2.roster,
      cover' e entry.key)
    (hother : ∀ e k, ¬ k.Same key → cover e k → cover' e k) :
    Tended start cover' (r.visit w key f).1 (r.visit w key f).2.1 := by
  rcases visit_cases w r key f with ⟨hnone, heq⟩ | ⟨s, hs, heq⟩ <;> rw [heq]
  · refine ⟨h.linked, h.distinct, h.people, fun entry hentry e he => ?_⟩
    refine hother e _ (fun hsame => ?_) (h.covered entry hentry e he)
    have hfound := h.distinct.find?_of_mem hentry
    rw [find?_congr r hsame] at hfound
    simp [script?, hfound] at hnone
  · obtain ⟨entry, hfind, rfl⟩ := script?_eq_some.1 hs
    obtain ⟨hworkspace, hscript⟩ := hf entry.script
    rw [hworkspace, hscript]
    refine h.modify hfind (by intro; rfl) ?_ (fun _ _ hlinked => hlinked.call_at called) ?_ hother
    · exact (Stage.SamePeople.lasting start).call h.people entry.script called
    · exact hroster entry (mem_of_find? hfind) (key_of_find? hfind)

/-- A poll lets nobody into a roster. -/
theorem updateEach (h : Tended start cover w r) (keys : List Path) :
    Tended start cover (r.updateEach w keys).1 (r.updateEach w keys).2.1 := by
  induction keys generalizing w r with
  | nil => exact h
  | cons key keys ih =>
    exact ih (h.visit key .update (f := Script.update) (fun _ => ⟨rfl, rfl⟩)
      (fun entry hentry _ e he => h.covered entry hentry e (Script.mem_roster_update he)) (fun _ _ _ => id))

end Tended

end Registry

/-! ## Section 5 - groups -/

namespace ScriptGroup

open Registry (Tended)

variable {start : Stage} {base : Entity → Path → Prop} {w : Workspace Stage} {r : Registry}

/-- What a cover becomes by a group. -/
def Covers (base : Entity → Path → Prop) (g : ScriptGroup) (e : Entity) (k : Path) : Prop :=
  base e k ∨ (e = g.entity ∧ g.holds k = true)

/-- A group brings its entity to the scripts that it holds, and to no other. -/
theorem tended_add {g : ScriptGroup} (h : Tended start (Covers base g) w r) (identity : String) :
    Tended start (Covers base (add w r g identity).2.2) (add w r g identity).1 (add w r g identity).2.1 ∧
      (add w r g identity).2.2.entity = g.entity := by
  have hresolved := h.resolve identity
  rcases add_cases w r g identity with ⟨error, w', line, hresolve, heq⟩ |
    ⟨w', r', key, hresolve, -, heq⟩ | ⟨w', r', key, hresolve, -, heq⟩ <;>
    rw [heq] <;> rw [hresolve] at hresolved
  · exact ⟨hresolved.workspace rfl, rfl⟩
  · exact ⟨hresolved.release w'.files identity, rfl⟩
  · have hmore : ∀ e k, Covers base g e k → Covers base { g with scripts := g.scripts ++ [(identity, key)] } e k := by
      rintro e k (hbase | ⟨he, hholds⟩)
      · exact .inl hbase
      · refine .inr ⟨he, ?_⟩
        simp only [holds, List.any_append, Bool.or_eq_true] at hholds ⊢
        exact .inl hholds
    refine ⟨hresolved.visit key (.attach g.entity) (fun _ => ⟨rfl, rfl⟩) (fun entry hentry hsame e he => ?_)
      (fun e k _ => hmore e k), rfl⟩
    rcases Script.mem_roster_attach he with hold | rfl
    · exact hmore e _ (hresolved.covered entry hentry e hold)
    · exact .inr ⟨rfl, by simp [holds, hsame.symm]⟩

theorem tended_addEach {g : ScriptGroup} (h : Tended start (Covers base g) w r) (identities : List String) :
    Tended start (Covers base (addEach w r g identities).2.2) (addEach w r g identities).1
      (addEach w r g identities).2.1 ∧ (addEach w r g identities).2.2.entity = g.entity := by
  induction identities generalizing w r g with
  | nil => exact ⟨h, rfl⟩
  | cons identity rest ih =>
    obtain ⟨hfirst, hentity⟩ := tended_add h identity
    obtain ⟨hrest, hentity'⟩ := ih hfirst
    exact ⟨hrest, hentity'.trans hentity⟩

theorem tended_form (h : Tended start base w r) (e : Entity) (identities : List String) :
    Tended start (Covers base (form w r e identities).2.2) (form w r e identities).1
      (form w r e identities).2.1 ∧ (form w r e identities).2.2.entity = e :=
  tended_addEach (g := { entity := e }) (h.mono fun _ _ => .inl) identities

/-- Whoever is detached from all scripts of a group is in no roster on account of the group any more. -/
theorem tended_releaseEach {e : Entity} {scripts : List (String × Path)}
    (h : Tended start (fun e' k => base e' k ∨ (e' = e ∧ ∃ s ∈ scripts, s.2.Same k)) w r) :
    Tended start base (releaseEach w r e .detachEntity scripts).1
      (releaseEach w r e .detachEntity scripts).2 := by
  induction scripts generalizing w r with
  | nil => exact h.mono fun e' k hcover => hcover.resolve_right (by simp)
  | cons script rest ih =>
    obtain ⟨identity, key⟩ := script
    rw [releaseEach_cons]
    refine ih (Tended.release (?_ : Tended start _ _ _) _ identity)
    -- the script of the key is left first, and only what the rest accounts for stays
    refine h.visit key (.detach e) (f := fun w s => s.detach w e) (fun _ => ⟨rfl, rfl⟩)
      (fun entry hentry hsame e' he' => ?_) (fun e' k hne hcover => ?_)
    · have hsettled := h.linked.settled entry.script (List.mem_map_of_mem hentry)
      have hfilter : e' ∈ entry.script.roster.filter (· ≠ e) := (hsettled.detach w e).1 ▸ he'
      obtain ⟨hmem, hother⟩ := List.mem_filter.1 hfilter
      refine .inl ((h.covered entry hentry e' hmem).resolve_right fun hgroup => ?_)
      simp [hgroup.1] at hother
    · refine hcover.imp_right fun ⟨he', s, hs, hsk⟩ => ⟨he', ?_⟩
      rcases List.mem_cons.1 hs with rfl | hrest
      · exact absurd hsk.symm hne
      · exact ⟨s, hrest, hsk⟩

theorem tended_teardown {g : ScriptGroup} (h : Tended start (Covers base g) w r) :
    Tended start base (g.teardown w r .detachEntity).1 (g.teardown w r .detachEntity).2 := by
  refine tended_releaseEach (h.mono fun e k hcover => hcover.imp_right fun ⟨he, hholds⟩ => ⟨he, ?_⟩)
  simpa [holds] using hholds

end ScriptGroup

end HotReload
