import HotReload.Proofs.Registry.Entries

/-! # A registry with its groups

    A group session is a registry with the groups that live on it, and everything that
    can happen to the two: scripts are taken into use and given up, one by one or in
    groups, they are polled, and the surroundings change, which are the files and
    everything else that the workspace holds.  The order of these operations is free.

    Groups do nothing to a registry but take scripts into use, give them up, and visit
    them with their entities. -/

namespace HotReload

variable {η : Type}

/-! ## Section 1 - operations -/

/-- A registry with its groups, oldest first, and the workspace that its scripts live in. -/
structure GroupSession (η : Type) where
  workspace : Workspace η
  registry : Registry
  groups : List ScriptGroup := []

/-- What can happen to a registry and its groups. -/
inductive GroupOp (η : Type) where
  /-- The files change, and watchers see it. -/
  | edit (files : Files) (touches : List Touch)
  /-- Whatever else works with the workspace goes on, and leaves the files as they are. -/
  | others (w : Workspace η)
  /-- Somebody takes a script into use. -/
  | resolve (identity : String)
  /-- Somebody gives a script up. -/
  | release (identity : String)
  /-- Somebody asks for a reload of a script. -/
  | request (identity : String)
  /-- Scripts answer their changes, one after the other. -/
  | poll (keys : List Path)
  /-- The events of all scripts are taken. -/
  | drain
  | form (e : Entity) (identities : List String)
  /-- A group is taken down.  It is known by its place. -/
  | teardown (k : Nat) (policy : TeardownPolicy)

namespace GroupSession

/-- A session without any scripts and groups. -/
def fresh (w : Workspace η) (r : Registry) : GroupSession η := ⟨w, { r with entries := [] }, []⟩

/-- What a request asks to be reloaded, if it is one. -/
def requested (c : GroupSession η) : GroupOp η → Option Path
  | .request identity => some (c.registry.keyOf c.workspace.files identity)
  | _ => none

variable [Host η]

/-- What an operation leads to. -/
def step (c : GroupSession η) : GroupOp η → GroupSession η
  | .edit files touches =>
    { c with workspace := { c.workspace with files }, registry := c.registry.notice files touches }
  | .others w => { c with workspace := { w with files := c.workspace.files } }
  | .resolve identity =>
    let (workspace, registry, _) := c.registry.resolve c.workspace identity
    { c with workspace, registry }
  | .release identity => { c with registry := (c.registry.release c.workspace.files identity).1 }
  | .request identity => { c with registry := (c.registry.requestReload c.workspace.files identity).1 }
  | .poll keys =>
    let (workspace, registry, _) := c.registry.updateEach c.workspace keys
    { c with workspace, registry }
  | .drain => { c with registry := c.registry.drainEvents.1 }
  | .form e identities =>
    let (workspace, registry, g) := ScriptGroup.form c.workspace c.registry e identities
    ⟨workspace, registry, c.groups ++ [g]⟩
  | .teardown k policy =>
    match c.groups[k]? with
    | none => c
    | some g =>
      let (workspace, registry) := g.teardown c.workspace c.registry policy
      ⟨workspace, registry, c.groups.eraseIdx k⟩

section teardowns
variable {c : GroupSession η} {k : Nat}

theorem step_teardown_of_none (h : c.groups[k]? = none) (policy : TeardownPolicy) :
    c.step (.teardown k policy) = c := by
  simp only [step, h]

theorem step_teardown_of_some {g : ScriptGroup} (h : c.groups[k]? = some g) (policy : TeardownPolicy) :
    c.step (.teardown k policy) =
      ⟨(g.teardown c.workspace c.registry policy).1, (g.teardown c.workspace c.registry policy).2,
        c.groups.eraseIdx k⟩ := by
  simp only [step, h]

end teardowns

/-- Operations one after the other. -/
def run (c : GroupSession η) (ops : List (GroupOp η)) : GroupSession η := ops.foldl step c

@[simp] theorem run_nil (c : GroupSession η) : c.run [] = c := rfl

@[simp] theorem run_cons (c : GroupSession η) (d : GroupOp η) (rest : List (GroupOp η)) :
    c.run (d :: rest) = (c.step d).run rest :=
  rfl

theorem run_append (c : GroupSession η) (before after : List (GroupOp η)) :
    c.run (before ++ after) = (c.run before).run after :=
  List.foldl_append

end GroupSession

/-! ## Section 2 - registries at work -/

namespace Registry

/-- A registry that comes from another by taking scripts into use, giving them up, and visiting them in
    ways that concern the entities only, with some lines for the log. -/
inductive Worked [Host η] (w : Workspace η) (r : Registry) : Workspace η → Registry → Prop where
  | refl : Worked w r w r
  | resolve {w' : Workspace η} {r' : Registry} (h : Worked w r w' r') (identity : String) :
    Worked w r (r'.resolve w' identity).1 (r'.resolve w' identity).2.1
  | release {w' : Workspace η} {r' : Registry} (h : Worked w r w' r') (identity : String) :
    Worked w r w' (r'.release w'.files identity).1
  | say {w' : Workspace η} {r' : Registry} (h : Worked w r w' r') (line : LogLine) :
    Worked w r (w'.say line) r'
  | visit {α : Type} {w' : Workspace η} {r' : Registry} (h : Worked w r w' r') (key : Path)
    {f : Workspace η → Script → Workspace η × Script × α}
    (hf : ∀ s, Script.Frame w' (f w' s).1 s (f w' s).2.1) :
    Worked w r (r'.visit w' key f).1 (r'.visit w' key f).2.1

namespace Worked
variable [Host η] {w w' : Workspace η} {r r' : Registry}

theorem files (h : Worked w r w' r') : w'.files = w.files := by
  induction h with
  | refl => rfl
  | resolve h identity ih => exact (files_resolve _ _ identity).trans ih
  | release h identity ih => exact ih
  | say h line ih => exact ih
  | visit h key hf ih => exact (files_visit (fun s => (hf s).files) _ key).trans ih

theorem setting (h : Worked w r w' r') : r'.setting = r.setting := by
  induction h with
  | refl => rfl
  | resolve h identity ih => exact (setting_resolve _ _ identity).trans ih
  | release h identity ih => exact (setting_release _ _ identity).trans ih
  | say h line ih => exact ih
  | visit h key hf ih => exact (setting_visit _ _ key _).trans ih

theorem carries (h : Worked w r w' r') : r.Carries r' := by
  induction h with
  | refl => exact .refl r
  | resolve h identity ih => exact ih.trans (carries_resolve _ _ identity)
  | release h identity ih => exact ih.trans (carries_release _ _ identity)
  | say h line ih => exact ih
  | visit h key hf ih => exact ih.trans (carries_visit (fun s => (hf s).carries) _ key)

theorem distinct (h : Worked w r w' r') (hr : r.Distinct) : r'.Distinct := by
  induction h with
  | refl => exact hr
  | resolve h identity ih => exact ih.resolve _ identity
  | release h identity ih => exact ih.of_keys (keys_release _ _ identity)
  | say h line ih => exact ih
  | visit h key hf ih => exact ih.of_keys (keys_visit _ _ key _)

theorem trans {w'' : Workspace η} {r'' : Registry} (h : Worked w r w' r') (h' : Worked w' r' w'' r'') :
    Worked w r w'' r'' := by
  induction h' with
  | refl => exact h
  | resolve h' identity ih => exact ih.resolve identity
  | release h' identity ih => exact ih.release identity
  | say h' line ih => exact ih.say line
  | visit h' key hf ih => exact ih.visit key hf

end Worked

/-- In a registry that keeps its books, the scripts without users are those out of service. -/
def Honest (r : Registry) : Prop :=
  ∀ k users discarded, r.standing? k = some (users, discarded) → (discarded = true ↔ users = 0)

theorem Honest.of_standing? {r r' : Registry} (h : r.Honest) (hsame : ∀ k, r'.standing? k = r.standing? k) :
    r'.Honest := by
  intro k users discarded hk
  exact h k users discarded ((hsame k).symm.trans hk)

theorem Honest.resolve {r : Registry} (h : r.Honest) (w : Workspace η) (identity : String) :
    (r.resolve w identity).2.1.Honest := by
  cases hresolve : r.resolve w identity with
  | mk w' rest =>
    obtain ⟨r', result⟩ := rest
    cases result with
    | error error =>
      obtain ⟨-, rfl⟩ := resolve_error hresolve
      exact h
    | ok key =>
      intro k users discarded hk
      rw [standing?_resolve hresolve] at hk
      split at hk
      · cases hk
        simp
      · exact h k users discarded hk

theorem Honest.release {r : Registry} (h : r.Honest) (f : Files) (identity : String) :
    (r.release f identity).1.Honest := by
  intro k users discarded hk
  rw [standing?_release] at hk
  split at hk
  · obtain ⟨⟨u, d⟩, hbefore, heq⟩ := Option.map_eq_some_iff.1 hk
    have hhonest := h k u d hbefore
    obtain ⟨rfl, rfl⟩ := Prod.mk.inj heq
    by_cases hlast : u - 1 > 0
    · -- somebody has used it before, so it was in service
      have hused : u ≠ 0 := by omega
      have hstill : u - 1 ≠ 0 := by omega
      simpa [hlast, hstill, hused] using hhonest
    · have hnone : u - 1 = 0 := by omega
      simp [hnone]
  · exact h k users discarded hk

theorem Worked.honest [Host η] {w w' : Workspace η} {r r' : Registry} (h : Worked w r w' r')
    (hr : r.Honest) : r'.Honest := by
  induction h with
  | refl => exact hr
  | resolve h identity ih => exact ih.resolve _ identity
  | release h identity ih => exact ih.release _ identity
  | say h line ih => exact ih
  | visit h key hf ih =>
    exact ih.of_standing? (standing?_visit_of_frame hf _ key)

end Registry

/-! ## Section 3 - groups at work -/

namespace ScriptGroup

open Registry (Worked)

theorem holds_eq (g : ScriptGroup) (k : Path) : g.holds k = g.keys.any fun key => decide (key.Same k) := by
  simp [holds, keys, Function.comp_def]

theorem holds_iff {g : ScriptGroup} {k : Path} : g.holds k = true ↔ ∃ key ∈ g.keys, key.Same k := by
  simp [holds_eq]

theorem holds_congr {g : ScriptGroup} {k key : Path} (h : k.Same key) : g.holds k = g.holds key := by
  rw [Bool.eq_iff_iff, holds_iff, holds_iff]
  constructor
  · rintro ⟨key', hmem, hk⟩
    exact ⟨key', hmem, hk.trans h⟩
  · rintro ⟨key', hmem, hk⟩
    exact ⟨key', hmem, hk.trans h.symm⟩

variable [Host η]

/-- An identity that leads to a script which the group does not hold yet. -/
theorem add_new {w w' : Workspace η} {r r' : Registry} {g : ScriptGroup} {identity : String} {key : Path}
    (hresolve : r.resolve w identity = (w', r', .ok key)) (hholds : g.holds key = false) : add w r g identity =
      ((r'.visit w' key fun w s => s.attach w g.entity).1, (r'.visit w' key fun w s => s.attach w g.entity).2.1,
        { g with scripts := g.scripts ++ [(identity, key)] }) := by
  unfold add
  rw [hresolve]
  simp [hholds]

/-- Everything that taking one more identity into a group can come to: it cannot be loaded, it is another
    spelling of a script of the group, or the group gets one more script. -/
theorem add_cases (w : Workspace η) (r : Registry) (g : ScriptGroup) (identity : String) :
    (∃ error w' line, r.resolve w identity = (w', r, .error error) ∧ add w r g identity =
      (w'.say line, r, { g with unresolved := g.unresolved ++ [identity] })) ∨
    (∃ w' r' key, r.resolve w identity = (w', r', .ok key) ∧ g.holds key = true ∧
      add w r g identity = (w', (r'.release w'.files identity).1, g)) ∨
    (∃ w' r' key, r.resolve w identity = (w', r', .ok key) ∧ g.holds key = false ∧
      add w r g identity =
        ((r'.visit w' key fun w s => s.attach w g.entity).1,
          (r'.visit w' key fun w s => s.attach w g.entity).2.1,
          { g with scripts := g.scripts ++ [(identity, key)] })) := by
  cases hresolve : r.resolve w identity with
  | mk w' rest =>
    obtain ⟨r', result⟩ := rest
    cases result with
    | error error =>
      obtain ⟨-, rfl⟩ := Registry.resolve_error hresolve
      exact .inl ⟨error, w', _, rfl, by rw [add, hresolve]⟩
    | ok key =>
      cases hholds : g.holds key with
      | true => exact .inr (.inl ⟨w', r', key, rfl, hholds, by rw [add, hresolve]; simp [hholds]⟩)
      | false => exact .inr (.inr ⟨w', r', key, rfl, hholds, add_new hresolve hholds⟩)

theorem worked_add (w : Workspace η) (r : Registry) (g : ScriptGroup) (identity : String) :
    Worked w r (add w r g identity).1 (add w r g identity).2.1 := by
  have hresolved := (Worked.refl (w := w) (r := r)).resolve identity
  rcases add_cases w r g identity with ⟨error, w', line, hresolve, heq⟩ |
    ⟨w', r', key, hresolve, -, heq⟩ | ⟨w', r', key, hresolve, -, heq⟩ <;>
    rw [heq] <;> rw [hresolve] at hresolved
  · exact hresolved.say line
  · exact hresolved.release identity
  · exact hresolved.visit key fun s => Script.attach_frame w' s g.entity

theorem worked_addEach (w : Workspace η) (r : Registry) (g : ScriptGroup) (identities : List String) :
    Worked w r (addEach w r g identities).1 (addEach w r g identities).2.1 := by
  induction identities generalizing w r g with
  | nil => exact .refl
  | cons identity rest ih => exact (worked_add w r g identity).trans (ih _ _ _)

theorem worked_form (w : Workspace η) (r : Registry) (e : Entity) (identities : List String) :
    Worked w r (form w r e identities).1 (form w r e identities).2.1 :=
  worked_addEach w r { entity := e } identities

/-- Attaching an entity changes nothing about the uses. -/
theorem standing?_attach (w : Workspace η) (r : Registry) (e : Entity) (key k : Path) :
    (r.visit w key fun w s => s.attach w e).2.1.standing? k = r.standing? k :=
  Registry.standing?_visit_of_frame (fun s => Script.attach_frame w s e) r key k

/-- A group with a single identity. -/
theorem form_of_resolve {w w' : Workspace η} {r r' : Registry} {identity : String} {key : Path}
    (h : r.resolve w identity = (w', r', .ok key)) (e : Entity) :
    (form w r e [identity]).2.2 = { entity := e, scripts := [(identity, key)] } ∧
      Worked w' r' (form w r e [identity]).1 (form w r e [identity]).2.1 ∧
      ∀ k, (form w r e [identity]).2.1.standing? k = r'.standing? k := by
  have hform : form w r e [identity] =
      ((r'.visit w' key fun w s => s.attach w e).1, (r'.visit w' key fun w s => s.attach w e).2.1,
        { entity := e, scripts := [(identity, key)] }) := by
    simp [form, addEach, add, h, holds]
  rw [hform]
  exact ⟨rfl, Worked.refl.visit key fun s => Script.attach_frame w' s e, standing?_attach w' r' e key⟩

/-- What giving up a script does to its entity, if anything. -/
def leave (w : Workspace η) (r : Registry) (e : Entity) (key : Path) : TeardownPolicy → Workspace η × Registry
  | .keepAttachments => (w, r)
  | .detachEntity =>
    ((r.visit w key fun w s => s.detach w e).1, (r.visit w key fun w s => s.detach w e).2.1)

theorem releaseEach_cons (w : Workspace η) (r : Registry) (e : Entity) (policy : TeardownPolicy)
    (identity : String) (key : Path) (rest : List (String × Path)) :
    releaseEach w r e policy ((identity, key) :: rest) =
      releaseEach (leave w r e key policy).1
        ((leave w r e key policy).2.release (leave w r e key policy).1.files identity).1 e policy rest := by
  cases policy <;> rfl

theorem worked_leave (w : Workspace η) (r : Registry) (e : Entity) (key : Path) (policy : TeardownPolicy) :
    Worked w r (leave w r e key policy).1 (leave w r e key policy).2 := by
  cases policy with
  | keepAttachments => exact .refl
  | detachEntity => exact Worked.refl.visit key fun s => Script.detach_frame w s e

theorem standing?_leave (w : Workspace η) (r : Registry) (e : Entity) (key : Path) (policy : TeardownPolicy)
    (k : Path) : (leave w r e key policy).2.standing? k = r.standing? k := by
  cases policy with
  | keepAttachments => rfl
  | detachEntity =>
    exact Registry.standing?_visit_of_frame (fun s => Script.detach_frame w s e) r key k

/-- A group with a single script gives up no more than that. -/
theorem standing?_teardown_of_single {g : ScriptGroup} {identity : String} {key : Path}
    (h : g.scripts = [(identity, key)]) (w : Workspace η) (r : Registry) (policy : TeardownPolicy) (k : Path) :
    (g.teardown w r policy).2.standing? k = (r.release w.files identity).1.standing? k := by
  have hworked := worked_leave w r g.entity key policy
  rw [teardown, h, releaseEach_cons, releaseEach, Registry.standing?_release, Registry.standing?_release,
    Registry.keyOf_congr hworked.setting hworked.files, standing?_leave]

theorem worked_releaseEach (w : Workspace η) (r : Registry) (e : Entity) (policy : TeardownPolicy)
    (scripts : List (String × Path)) :
    Worked w r (releaseEach w r e policy scripts).1 (releaseEach w r e policy scripts).2 := by
  induction scripts generalizing w r with
  | nil => exact .refl
  | cons script rest ih =>
    obtain ⟨identity, key⟩ := script
    rw [releaseEach_cons]
    exact ((worked_leave w r e key policy).release identity).trans (ih _ _)

theorem worked_teardown (w : Workspace η) (r : Registry) (g : ScriptGroup) (policy : TeardownPolicy) :
    Worked w r (g.teardown w r policy).1 (g.teardown w r policy).2 :=
  worked_releaseEach w r g.entity policy g.scripts

end ScriptGroup

/-! ## Section 4 - what single operations do -/

/-- Whether an operation takes scripts into use or gives them up. -/
def GroupOp.isUse : GroupOp η → Bool
  | .resolve _ | .release _ | .form .. | .teardown .. => true
  | .edit .. | .others _ | .request _ | .poll _ | .drain => false

/-- Whether an operation changes the files. -/
def GroupOp.isEdit : GroupOp η → Bool
  | .edit .. => true
  | _ => false

namespace GroupSession
variable [Host η]

/-- Such an operation sets the registry to work. -/
theorem worked_step (c : GroupSession η) {d : GroupOp η} (h : d.isUse = true) :
    Registry.Worked c.workspace c.registry (c.step d).workspace (c.step d).registry := by
  cases d with
  | resolve identity => exact .resolve .refl identity
  | release identity => exact .release .refl identity
  | form e identities => exact ScriptGroup.worked_form c.workspace c.registry e identities
  | teardown k policy =>
    cases hg : c.groups[k]? with
    | none =>
      rw [step_teardown_of_none hg]
      exact .refl
    | some g =>
      rw [step_teardown_of_some hg]
      exact ScriptGroup.worked_teardown c.workspace c.registry g policy
  | edit files touches => cases h
  | others w => cases h
  | request identity => cases h
  | poll keys => cases h
  | drain => cases h

/-- Any other operation leaves the standing of all scripts and the groups alone. -/
theorem step_of_aside (c : GroupSession η) {d : GroupOp η} (h : d.isUse = false) :
    (∀ k, (c.step d).registry.standing? k = c.registry.standing? k) ∧
      (c.step d).registry.keys = c.registry.keys ∧ (c.step d).groups = c.groups := by
  cases d with
  | edit files touches =>
    exact ⟨Registry.standing?_of_find? (Registry.find?_notice c.registry files touches) fun _ e =>
      Prod.ext rfl (Script.discarded_notice e.script files touches), Registry.keys_map fun _ => rfl, rfl⟩
  | others w => exact ⟨fun _ => rfl, rfl, rfl⟩
  | request identity =>
    refine ⟨Registry.standing?_of_find?
      (Registry.find?_requestReload c.registry c.workspace.files identity) fun _ e => ?_,
      Registry.keys_requestReload .., rfl⟩
    split <;> rfl
  | poll keys =>
    exact ⟨Registry.standing?_updateEach c.workspace c.registry keys, Registry.keys_updateEach .., rfl⟩
  | drain =>
    exact ⟨Registry.standing?_of_find? (Registry.find?_drainEvents c.registry) fun _ _ => rfl,
      Registry.keys_map fun _ => rfl, rfl⟩
  | resolve identity => cases h
  | release identity => cases h
  | form e identities => cases h
  | teardown k policy => cases h

/-- The settings of the registry are the same all the time. -/
theorem setting_step (c : GroupSession η) (d : GroupOp η) : (c.step d).registry.setting = c.registry.setting := by
  cases huse : d.isUse with
  | true => exact (c.worked_step huse).setting
  | false =>
    cases d with
    | request identity =>
      show (c.registry.requestReload c.workspace.files identity).1.setting = c.registry.setting
      unfold Registry.requestReload
      split <;> rfl
    | poll keys => exact Registry.setting_updateEach c.workspace c.registry keys
    | edit files touches => rfl
    | others w => rfl
    | drain => rfl
    | resolve identity => cases huse
    | release identity => cases huse
    | form e identities => cases huse
    | teardown k policy => cases huse

theorem setting_run (c : GroupSession η) (ops : List (GroupOp η)) :
    (c.run ops).registry.setting = c.registry.setting := by
  induction ops generalizing c with
  | nil => rfl
  | cons d rest ih => exact (ih (c.step d)).trans (c.setting_step d)

/-- Nothing but an edit changes the files. -/
theorem files_step (c : GroupSession η) {d : GroupOp η} (h : d.isEdit = false) :
    (c.step d).workspace.files = c.workspace.files := by
  cases huse : d.isUse with
  | true => exact (c.worked_step huse).files
  | false =>
    cases d with
    | poll keys => exact Registry.files_updateEach c.workspace c.registry keys
    | edit files touches => cases h
    | others w => rfl
    | request identity => rfl
    | drain => rfl
    | resolve identity => cases huse
    | release identity => cases huse
    | form e identities => cases huse
    | teardown k policy => cases huse

/-- Only forming brings a new group in. -/
theorem mem_groups_step {c : GroupSession η} {d : GroupOp η} {g : ScriptGroup} (h : g ∈ (c.step d).groups) :
    g ∈ c.groups ∨ ∃ e identities, d = .form e identities ∧
      g = (ScriptGroup.form c.workspace c.registry e identities).2.2 := by
  cases d with
  | form e identities =>
    rcases List.mem_append.1 h with hg | hg
    · exact .inl hg
    · exact .inr ⟨e, identities, rfl, List.mem_singleton.1 hg⟩
  | teardown k policy =>
    left
    cases hg : c.groups[k]? with
    | none => rwa [step_teardown_of_none hg] at h
    | some g' =>
      rw [step_teardown_of_some hg] at h
      exact List.mem_of_mem_eraseIdx h
  | edit files touches => exact .inl h
  | others w => exact .inl h
  | resolve identity => exact .inl h
  | release identity => exact .inl h
  | request identity => exact .inl h
  | poll keys => exact .inl h
  | drain => exact .inl h

end GroupSession

/-! ## Section 5 - a registry of the root folder -/

namespace Registry

/-- An empty registry, whose scripts are in the root folder. -/
def rooted : Registry := { root := ⟨"/"⟩, extension := "" }

theorem keyOf_rooted {identity : String} {p : Path} (h : rooted.resolvePath identity = p) (f : Files) :
    rooted.keyOf f identity = f.normalize p := by
  rw [keyOf, h]

end Registry

end HotReload
