import HotReload.Proofs.Registry.GroupSession

/-! # A registry and its users

    Those who use scripts take them from a registry by any identities, give them up
    again, and have them polled, while the files change in any way.  A registry session
    is a registry that is used like this, by one operation after the other.  Those who
    hold a script may also call it, but they leave it to the registry to take it out of
    service and to bring it back.

    The counter of an entry, the service of its script and the place of the entry in the
    list are touched by different operations.  They stay consistent in every session
    because each operation goes to an entry by its key, whatever the identity that led to
    the key, and no entry is ever given another key. -/

namespace HotReload

variable {η : Type}

/-! ## Section 1 - operations -/

namespace Script

/-- Whether a call takes a script out of service or brings it back. -/
def Call.isService : Call → Bool
  | .discard | .resume => true
  | .attach _ | .detach _ | .detachAll | .reattach | .requestReload | .update | .recompile => false

/-- Every other call leaves it in service, or out of service. -/
theorem discarded_call [Host η] (w : Workspace η) (s : Script) {c : Call} (h : c.isService = false) :
    (s.call w c).2.discarded = s.discarded := by
  have hfooting : (s.call w c).2.discarded = (s.footing.after w.files c).discarded :=
    congrArg Footing.discarded (footing_call w s c)
  rw [hfooting]
  cases c with
  | update => exact (apply_ite Footing.discarded _ _ _).trans (ite_self _)
  | discard => cases h
  | resume => cases h
  | _ => rfl

/-- The later states of a script. -/
inductive Lives (s : Script) : Script → Prop where
  | refl : Lives s s
  | call {η : Type} [Host η] {s' : Script} (h : Lives s s') (w : Workspace η) (c : Call) : Lives s (s'.call w c).2
  | notice {s' : Script} (h : Lives s s') (f : Files) (touches : List Touch) : Lives s (s'.notice f touches)
  | drain {s' : Script} (h : Lives s s') : Lives s s'.drainEvents.1

theorem Lives.trans {s s' s'' : Script} (h : s.Lives s') (h' : s'.Lives s'') : s.Lives s'' := by
  induction h' with
  | refl => exact h
  | call _ w c ih => exact ih.call w c
  | notice _ f touches ih => exact ih.notice f touches
  | drain _ ih => exact ih.drain

end Script

/-- A registry, and the workspace that its scripts live in. -/
structure RegistrySession (η : Type) where
  workspace : Workspace η
  registry : Registry

/-- What can happen in a session. -/
inductive RegistryOp (η : Type) where
  /-- The files change, and watchers see it. -/
  | edit (files : Files) (touches : List Touch)
  /-- Whatever else works with the workspace goes on, and leaves the files as they are. -/
  | others (w : Workspace η)
  | resolve (identity : String)
  | release (identity : String)
  | update (key : Path)
  | poll
  | drain
  /-- Somebody who holds a script calls it. -/
  | call (key : Path) (c : Script.Call) (h : c.isService = false)

namespace RegistrySession

/-- A session without any scripts. -/
def opened (w : Workspace η) (r : Registry) : RegistrySession η := ⟨w, { r with entries := [] }⟩

/-- The place that an identity leads to at present. -/
def keyOf (d : RegistrySession η) (identity : String) : Path := d.registry.keyOf d.workspace.files identity

variable [Host η]

/-- What an operation leads to. -/
def step (d : RegistrySession η) : RegistryOp η → RegistrySession η
  | .edit files touches => ⟨{ d.workspace with files }, d.registry.notice files touches⟩
  | .others w => { d with workspace := { w with files := d.workspace.files } }
  | .resolve identity =>
    let (workspace, registry, _) := d.registry.resolve d.workspace identity
    ⟨workspace, registry⟩
  | .release identity => { d with registry := (d.registry.release d.workspace.files identity).1 }
  | .update key =>
    let (workspace, registry, _) := d.registry.update d.workspace key
    ⟨workspace, registry⟩
  | .poll =>
    let (workspace, registry, _) := d.registry.pollAll d.workspace
    ⟨workspace, registry⟩
  | .drain => { d with registry := d.registry.drainEvents.1 }
  | .call key c _ =>
    let (workspace, registry, _) :=
      d.registry.visit d.workspace key fun w s => ((s.call w c).1, (s.call w c).2, ())
    ⟨workspace, registry⟩

/-- Operations one after the other. -/
def run (d : RegistrySession η) (ops : List (RegistryOp η)) : RegistrySession η := ops.foldl step d

@[simp] theorem run_nil (d : RegistrySession η) : d.run [] = d := rfl

@[simp] theorem run_cons (d : RegistrySession η) (e : RegistryOp η) (rest : List (RegistryOp η)) :
    d.run (e :: rest) = (d.step e).run rest :=
  rfl

theorem registry_call (d : RegistrySession η) (key : Path) (c : Script.Call) (h : c.isService = false) :
    (d.step (.call key c h)).registry =
      (d.registry.visit d.workspace key fun w s => ((s.call w c).1, (s.call w c).2, ())).2.1 :=
  rfl

theorem run_append (d : RegistrySession η) (before after : List (RegistryOp η)) :
    d.run (before ++ after) = (d.run before).run after :=
  List.foldl_append

end RegistrySession

/-! ## Section 2 - labels -/

/-- The key of an entry, and the identity that it reports. -/
def RegistryEntry.label (e : RegistryEntry) : Path × String := (e.key, e.identity)

namespace Registry

/-- The labels of the entries, in order. -/
def labels (r : Registry) : List (Path × String) := r.entries.map RegistryEntry.label

theorem labels_map {r : Registry} {f : RegistryEntry → RegistryEntry} (hf : ∀ e, (f e).label = e.label) :
    labels { r with entries := r.entries.map f } = r.labels := by
  simp [labels, hf]

theorem labels_modify (r : Registry) {f : RegistryEntry → RegistryEntry} (hf : ∀ e, (f e).label = e.label)
    (key : Path) : (r.modify key f).labels = r.labels :=
  labels_map fun e => by split <;> simp [hf]

/-- A script that is loaded comes last; nothing else gets a label. -/
theorem labels_resolve (w : Workspace η) (r : Registry) (identity : String) :
    (r.resolve w identity).2.1.labels = r.labels ∨
      (r.find? (r.keyOf w.files identity) = none ∧
        (r.resolve w identity).2.1.labels = r.labels ++ [(r.keyOf w.files identity, identity)]) := by
  unfold resolve
  dsimp only
  cases hfind : r.find? (r.keyOf w.files identity) with
  | some e => exact .inl (labels_modify r (by intro; rfl) _)
  | none =>
    dsimp only
    cases Script.load w identity (r.keyOf w.files identity) r.options with
    | mk w' result =>
      cases result with
      | error error => exact .inl rfl
      | ok s => exact .inr ⟨rfl, List.map_append⟩

theorem labels_release (r : Registry) (f : Files) (identity : String) :
    (r.release f identity).1.labels = r.labels := by
  unfold release
  dsimp only
  split
  · rfl
  · split <;> exact labels_modify r (by intro; rfl) _

theorem labels_visit {α : Type} (w : Workspace η) (r : Registry) (key : Path)
    (f : Workspace η → Script → Workspace η × Script × α) : (r.visit w key f).2.1.labels = r.labels := by
  rcases visit_cases w r key f with ⟨-, heq⟩ | ⟨s, -, heq⟩ <;> rw [heq]
  exact labels_modify r (by intro; rfl) key

theorem labels_updateEach [Host η] (w : Workspace η) (r : Registry) (keys : List Path) :
    (r.updateEach w keys).2.1.labels = r.labels := by
  induction keys generalizing w r with
  | nil => rfl
  | cons key keys ih => exact (ih _ _).trans (labels_visit w r key Script.update)

end Registry

/-! ## Section 3 - entries last -/

/-- From one state of an entry to a later one.  How many users it has is another matter. -/
structure RegistryEntry.Becomes (e e' : RegistryEntry) : Prop where
  label : e'.label = e.label
  lives : e.script.Lives e'.script

theorem RegistryEntry.Becomes.refl (e : RegistryEntry) : e.Becomes e := ⟨rfl, .refl⟩

namespace Registry

/-- From one registry to another, no entry is lost, and none is given another key, identity or script. -/
structure Grows (r r' : Registry) : Prop where
  labels : r.labels <+: r'.labels
  entries : ∀ k e, r.find? k = some e → ∃ e', r'.find? k = some e' ∧ e.Becomes e'

namespace Grows
variable {r r' r'' : Registry}

theorem refl (r : Registry) : r.Grows r := ⟨List.prefix_refl _, fun _ e h => ⟨e, h, .refl e⟩⟩

theorem trans (h : r.Grows r') (h' : r'.Grows r'') : r.Grows r'' := by
  refine ⟨h.labels.trans h'.labels, fun k e he => ?_⟩
  obtain ⟨e', he', hfirst⟩ := h.entries k e he
  obtain ⟨e'', he'', hthen⟩ := h'.entries k e' he'
  exact ⟨e'', he'', hthen.label.trans hfirst.label, hfirst.lives.trans hthen.lives⟩

/-- It is enough that every entry is mapped to a later state of its own. -/
theorem of_find? {f : Path → RegistryEntry → RegistryEntry} (hlabels : r'.labels = r.labels)
    (hfind : ∀ k, r'.find? k = (r.find? k).map (f k)) (hf : ∀ k (e : RegistryEntry), e.Becomes (f k e)) :
    r.Grows r' := by
  refine ⟨hlabels ▸ List.prefix_refl _, fun k e he => ?_⟩
  exact ⟨f k e, by rw [hfind, he]; rfl, hf k e⟩

theorem visit {α : Type} (w : Workspace η) (r : Registry) (key : Path)
    {f : Workspace η → Script → Workspace η × Script × α} (hf : ∀ s : Script, s.Lives (f w s).2.1) :
    r.Grows (r.visit w key f).2.1 := by
  refine .of_find? (labels_visit w r key f) (find?_visit w r key f) fun k e => ?_
  split
  · exact ⟨rfl, hf e.script⟩
  · exact .refl e

section ops
variable [Host η]

theorem resolve (w : Workspace η) (r : Registry) (identity : String) : r.Grows (r.resolve w identity).2.1 := by
  have hlabels : r.labels <+: (r.resolve w identity).2.1.labels := by
    rcases r.labels_resolve w identity with hsame | ⟨-, hnew⟩
    · exact hsame ▸ List.prefix_refl _
    · exact hnew ▸ List.prefix_append _ _
  refine ⟨hlabels, ?_⟩
  cases h : r.resolve w identity with
  | mk w' rest =>
    obtain ⟨r', result⟩ := rest
    cases result with
    | error error =>
      obtain ⟨-, rfl⟩ := resolve_error h
      exact (refl r').entries
    | ok key =>
      obtain ⟨-, -, -, ⟨e, -, hfind⟩ | ⟨e, -, -, -, hfind⟩⟩ := resolve_ok h
      · -- the entry of the identity has been resumed, and the others are as they were
        intro k e he
        refine ⟨_, by rw [hfind, he]; rfl, ?_⟩
        split
        · exact ⟨rfl, Script.Lives.refl.call w .resume⟩
        · exact .refl e
      · exact fun k e he => ⟨e, by rw [hfind, he]; rfl, .refl e⟩

theorem release (w : Workspace η) (r : Registry) (identity : String) :
    r.Grows (r.release w.files identity).1 := by
  refine .of_find? (labels_release r w.files identity) (find?_release r w.files identity) fun k e => ?_
  split
  · unfold RegistryEntry.released
    split
    · exact ⟨rfl, .refl⟩
    · exact ⟨rfl, Script.Lives.refl.call w .discard⟩
  · exact .refl e

theorem update (w : Workspace η) (r : Registry) (key : Path) : r.Grows (r.update w key).2.1 := by
  have hvisit : r.Grows (r.visit w key Script.update).2.1 :=
    .visit w r key fun s => Script.Lives.refl.call w .update
  exact hvisit

theorem updateEach (w : Workspace η) (r : Registry) (keys : List Path) : r.Grows (r.updateEach w keys).2.1 := by
  induction keys generalizing w r with
  | nil => exact refl r
  | cons key keys ih => exact (update w r key).trans (ih _ _)

end ops

end Grows

end Registry

namespace RegistrySession

section growth
variable [Host η]

theorem grows_step (d : RegistrySession η) (e : RegistryOp η) : d.registry.Grows (d.step e).registry := by
  cases e with
  | edit files touches =>
    exact .of_find? (Registry.labels_map fun _ => rfl) (Registry.find?_notice d.registry files touches)
      fun _ e => ⟨rfl, Script.Lives.refl.notice files touches⟩
  | others w => exact .refl d.registry
  | resolve identity => exact .resolve d.workspace d.registry identity
  | release identity => exact .release d.workspace d.registry identity
  | update key => exact .update d.workspace d.registry key
  | poll => exact .updateEach d.workspace d.registry _
  | drain =>
    exact .of_find? (Registry.labels_map fun _ => rfl) (Registry.find?_drainEvents d.registry)
      fun _ e => ⟨rfl, Script.Lives.refl.drain⟩
  | call key c h =>
    rw [registry_call]
    exact .visit d.workspace d.registry key fun s => Script.Lives.refl.call d.workspace c

theorem grows_run (d : RegistrySession η) (ops : List (RegistryOp η)) : d.registry.Grows (d.run ops).registry := by
  induction ops generalizing d with
  | nil => exact .refl d.registry
  | cons e rest ih => exact (d.grows_step e).trans (ih _)

end growth

/-! ## Section 4 - books -/

/-- Every key has one entry, and scripts without users are out of service. -/
structure Sound (d : RegistrySession η) : Prop where
  distinct : d.registry.Distinct
  honest : d.registry.Honest

namespace Sound
variable {d : RegistrySession η}

theorem opened (w : Workspace η) (r : Registry) : (RegistrySession.opened w r).Sound where
  distinct := .nil
  honest := by
    intro k users discarded hk
    cases hk

/-- An operation that changes no key, no number of users and no service. -/
theorem of_standing? {d' : RegistrySession η} (h : d.Sound) (hkeys : d'.registry.keys = d.registry.keys)
    (hstanding : ∀ k, d'.registry.standing? k = d.registry.standing? k) : d'.Sound :=
  ⟨h.distinct.of_keys hkeys, h.honest.of_standing? hstanding⟩

/-- The scripts without users are those out of service. -/
theorem unused_iff (h : d.Sound) {e : RegistryEntry} (he : e ∈ d.registry.entries) :
    e.users = 0 ↔ e.script.discarded = true := by
  have hstanding : d.registry.standing? e.key = some (e.users, e.script.discarded) := by
    unfold Registry.standing?
    rw [h.distinct.find?_of_mem he]
    rfl
  exact (h.honest _ _ _ hstanding).symm

variable [Host η]

theorem step (h : d.Sound) (e : RegistryOp η) : (d.step e).Sound := by
  cases e with
  | edit files touches =>
    exact h.of_standing? (Registry.keys_map fun _ => rfl)
      (Registry.standing?_of_find? (Registry.find?_notice d.registry files touches) fun _ e =>
        Prod.ext rfl (Script.discarded_notice e.script files touches))
  | others w => exact h.of_standing? rfl fun _ => rfl
  | resolve identity => exact ⟨h.distinct.resolve d.workspace identity, h.honest.resolve d.workspace identity⟩
  | release identity =>
    exact ⟨h.distinct.of_keys (Registry.keys_release d.registry d.workspace.files identity),
      h.honest.release d.workspace.files identity⟩
  | update key =>
    exact h.of_standing? (Registry.keys_visit d.workspace d.registry key Script.update)
      (Registry.standing?_visit (fun s => (Script.update_fields d.workspace s).2.2.1) d.registry key)
  | poll =>
    exact h.of_standing? (Registry.keys_updateEach d.workspace d.registry _)
      (Registry.standing?_updateEach d.workspace d.registry _)
  | drain =>
    exact h.of_standing? (Registry.keys_map fun _ => rfl)
      (Registry.standing?_of_find? (Registry.find?_drainEvents d.registry) fun _ _ => rfl)
  | call key c hc =>
    refine h.of_standing? ?_ ?_ <;> rw [registry_call]
    · exact Registry.keys_visit d.workspace d.registry key _
    · exact Registry.standing?_visit (fun s => Script.discarded_call d.workspace s hc) d.registry key

theorem run (h : d.Sound) (ops : List (RegistryOp η)) : (d.run ops).Sound := by
  induction ops generalizing d with
  | nil => exact h
  | cons e rest ih => exact ih (h.step e)

end Sound

end RegistrySession

/-! ## Section 5 - what the users get to see -/

namespace Registry

/-- A script that is handed out is in service; if none is, nothing has changed. -/
theorem resolve_outcome (w : Workspace η) (r : Registry) (identity : String) :
    (∃ error, (r.resolve w identity).2.2 = .error error ∧ (r.resolve w identity).2.1 = r) ∨
      ∃ key e, (r.resolve w identity).2.2 = .ok key ∧ (r.resolve w identity).2.1.find? key = some e ∧
        e.script.discarded = false := by
  cases h : r.resolve w identity with
  | mk w' rest =>
    obtain ⟨r', result⟩ := rest
    cases result with
    | error error => exact .inl ⟨error, rfl, (resolve_error h).2⟩
    | ok key =>
      have hstanding := standing?_resolve h key
      rw [if_pos (Path.Same.refl key)] at hstanding
      obtain ⟨e, he, heq⟩ := Option.map_eq_some_iff.1 hstanding
      exact .inr ⟨key, e, rfl, he, congrArg Prod.snd heq⟩

/-- Giving a script up is the end of its service exactly if it has no users then. -/
theorem release_outcome (r : Registry) (f : Files) (identity : String) :
    (r.release f identity).2 = true ↔
      ∃ e, (r.release f identity).1.lookup f identity = some e ∧ e.users = 0 := by
  -- the answer is given on the entry as it was, with one user less
  have hlast : (r.release f identity).2 = true ↔
      ∃ e, r.find? (r.keyOf f identity) = some e ∧ e.users - 1 = 0 := by
    unfold release
    dsimp only
    cases r.find? (r.keyOf f identity) with
    | none => simp
    | some e =>
      dsimp only
      by_cases hused : e.users - 1 > 0
      · rw [if_pos hused]
        simp
        omega
      · rw [if_neg hused]
        simp
        omega
  have husers : ∀ e : RegistryEntry, e.released.users = e.users - 1 := fun e => congrArg Prod.fst e.standing_released
  rw [hlast, lookup, keyOf_congr (setting_release r f identity) rfl, find?_release]
  simp only [Path.Same.refl, if_true, Option.map_eq_some_iff]
  constructor
  · rintro ⟨e, he, hnone⟩
    exact ⟨_, ⟨e, he, rfl⟩, (husers e).trans hnone⟩
  · rintro ⟨-, ⟨e, he, rfl⟩, hnone⟩
    exact ⟨e, he, (husers e).symm.trans hnone⟩

end Registry

namespace RegistrySession

/-- What those who use a registry rely on. -/
structure WellKept (d : RegistrySession η) : Prop where
  /-- No two entries have the same key. -/
  distinct : d.registry.Distinct
  /-- The scripts without users are those out of service. -/
  unused : ∀ e ∈ d.registry.entries, e.users = 0 ↔ e.script.discarded = true
  /-- Taking a script into use changes no entry at all, if it fails; else the script is in service. -/
  resolves : ∀ identity,
    (∃ error, (d.registry.resolve d.workspace identity).2.2 = .error error ∧
      (d.registry.resolve d.workspace identity).2.1 = d.registry) ∨
    ∃ key e, (d.registry.resolve d.workspace identity).2.2 = .ok key ∧
      (d.registry.resolve d.workspace identity).2.1.find? key = some e ∧ e.script.discarded = false
  /-- Giving a script up says whether its identity leads to an entry without users by then. -/
  releases : ∀ identity, (d.registry.release d.workspace.files identity).2 = true ↔
    ∃ e, (d.registry.release d.workspace.files identity).1.lookup d.workspace.files identity = some e ∧ e.users = 0

theorem Sound.wellKept {d : RegistrySession η} (h : d.Sound) : d.WellKept where
  distinct := h.distinct
  unused := fun _ he => h.unused_iff he
  resolves := d.registry.resolve_outcome d.workspace
  releases := d.registry.release_outcome d.workspace.files

/-- Whatever happens in a session: it is well kept at any time, and from then on no entry is lost, and none is
    given another key, identity or script. -/
theorem wellKept_and_grows [Host η] (w : Workspace η) (r : Registry) (before after : List (RegistryOp η)) :
    ((opened w r).run before).WellKept ∧
      ((opened w r).run before).registry.Grows ((opened w r).run (before ++ after)).registry := by
  rw [run_append]
  exact ⟨((Sound.opened w r).run before).wellKept, grows_run _ after⟩

end RegistrySession

end HotReload
