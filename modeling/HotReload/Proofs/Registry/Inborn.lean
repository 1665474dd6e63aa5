import HotReload.Proofs.Registry.Formation

/-! # Properties that scripts never lose

    A registry brings scripts into being by loading them, and what it does to them by
    itself is to take them out of service and to bring them back.  A property that a
    script has when it is loaded, and that it keeps through both, is *inborn*.  All else
    that happens to a script happens in a visit.

    So the scripts of a registry have an inborn property for good, provided that it is
    kept by the visits that there are: groups attach and detach their entities, and a
    poll updates scripts. -/

namespace HotReload

variable {η : Type}

/-- A property that a script has from the beginning, and keeps when it goes out of service and comes back. -/
structure Script.Inborn (P : Script → Prop) : Prop where
  load : ∀ {η : Type} {w : Workspace η} {identity : String} {p : Path} {options : ScriptOptions} {s : Script},
    (Script.load w identity p options).2 = .ok s → P s
  resume : ∀ {η : Type} (w : Workspace η) {s : Script}, P s → P (s.resume w).2
  discard : ∀ {s : Script}, P s → P s.discard

namespace Registry

/-- All scripts of a registry have a property. -/
def All (P : Script → Prop) (r : Registry) : Prop := ∀ k s, r.script? k = some s → P s

namespace All
variable {P : Script → Prop} {r r' : Registry}

/-! ## Section 1 - what a registry does by itself -/

/-- It is enough that every script is mapped to one that has the property. -/
theorem of_find? (h : r.All P) {f : Path → RegistryEntry → RegistryEntry}
    (hfind : ∀ k, r'.find? k = (r.find? k).map (f k))
    (hf : ∀ k (e : RegistryEntry), P e.script → P (f k e).script) : r'.All P := by
  intro k s hs
  obtain ⟨e', he', rfl⟩ := script?_eq_some.1 hs
  rw [hfind] at he'
  obtain ⟨e, he, rfl⟩ := Option.map_eq_some_iff.1 he'
  exact hf k e (h k e.script (script?_eq_some.2 ⟨e, he, rfl⟩))

/-- In a registry without double keys every entry is found, so it is about all of them. -/
theorem of_mem (h : r.All P) (hr : r.Distinct) {e : RegistryEntry} (he : e ∈ r.entries) : P e.script :=
  h e.key e.script (script?_eq_some.2 ⟨e, hr.find?_of_mem he, rfl⟩)

theorem visit {α : Type} (h : r.All P) (w : Workspace η) (key : Path)
    {f : Workspace η → Script → Workspace η × Script × α} (hf : ∀ s : Script, P s → P (f w s).2.1) :
    (r.visit w key f).2.1.All P := by
  refine h.of_find? (find?_visit w r key f) fun k e he => ?_
  split
  · exact hf e.script he
  · exact he

/-- The script that an identity takes into use has an inborn property if all did before. -/
theorem taken (h : r.All P) (hP : Script.Inborn P) {w : Workspace η} {identity : String} {key : Path} {s : Script}
    (hs : Taken w r identity key s) : P s := by
  cases hs with
  | known hentry => exact hP.resume w (h key _ (script?_eq_some.2 ⟨_, hentry, rfl⟩))
  | loaded hnone hfiles hload => exact hP.load hload

theorem resolve (h : r.All P) (hP : Script.Inborn P) (w : Workspace η) (identity : String) :
    (r.resolve w identity).2.1.All P := by
  cases hresolve : r.resolve w identity with
  | mk w' rest =>
    obtain ⟨r', result⟩ := rest
    cases result with
    | error error =>
      obtain ⟨-, rfl⟩ := resolve_error hresolve
      exact h
    | ok key =>
      obtain ⟨⟨s, hs, htaken⟩, hothers⟩ := taken_of_resolve hresolve
      intro k s' hs'
      by_cases hsame : k.Same key
      · rw [script?, find?_congr r' hsame, ← script?, hs] at hs'
        cases hs'
        exact h.taken hP htaken
      · rw [script?, hothers k hsame] at hs'
        exact h k s' hs'

theorem release (h : r.All P) (hP : Script.Inborn P) (f : Files) (identity : String) :
    (r.release f identity).1.All P := by
  refine h.of_find? (find?_release r f identity) fun k e he => ?_
  split
  · unfold RegistryEntry.released
    split
    · exact he
    · exact hP.discard he
  · exact he

theorem notice (h : r.All P) (hrequest : ∀ s : Script, P s → P s.requestReload) (f : Files)
    (touches : List Touch) : (r.notice f touches).All P := by
  refine h.of_find? (find?_notice r f touches) fun k e he => ?_
  rcases Script.notice_cases e.script f touches with heq | ⟨-, heq⟩
  · exact heq.symm ▸ he
  · exact heq.symm ▸ hrequest e.script he

theorem requestReload (h : r.All P) (hrequest : ∀ s : Script, P s → P s.requestReload) (f : Files)
    (identity : String) : (r.requestReload f identity).1.All P := by
  refine h.of_find? (find?_requestReload r f identity) fun k e he => ?_
  split
  · exact hrequest e.script he
  · exact he

/-! ## Section 2 - polls and groups -/

variable [Host η]

theorem updateEach (h : r.All P) (w : Workspace η) (keys : List Path)
    (hupdate : ∀ (w : Workspace η) (s : Script), P s → P (s.update w).2.1) : (r.updateEach w keys).2.1.All P := by
  induction keys generalizing w r with
  | nil => exact h
  | cons key keys ih =>
    have hfirst : (r.visit w key Script.update).2.1.All P := h.visit w key (hupdate w)
    exact ih hfirst _

/-- One more identity in a group is a script that is taken into use, and attached to the entity or given up. -/
theorem add (h : r.All P) (hP : Script.Inborn P)
    (hattach : ∀ (w : Workspace η) (s : Script) (e : Entity), P s → P (s.attach w e).2.1)
    (w : Workspace η) (g : ScriptGroup) (identity : String) : (g.add w r identity).2.1.All P := by
  have hresolved := h.resolve hP w identity
  rcases g.add_cases w r identity with ⟨error, w', line, hresolve, heq⟩ |
    ⟨w', r', key, hresolve, -, heq⟩ | ⟨w', r', key, hresolve, -, heq⟩ <;>
    rw [heq] <;> rw [hresolve] at hresolved
  · exact hresolved
  · exact hresolved.release hP w'.files identity
  · exact hresolved.visit w' key fun s hs => hattach w' s g.entity hs

theorem form (h : r.All P) (hP : Script.Inborn P)
    (hattach : ∀ (w : Workspace η) (s : Script) (e : Entity), P s → P (s.attach w e).2.1)
    (w : Workspace η) (e : Entity) (identities : List String) : (ScriptGroup.form w r e identities).2.1.All P := by
  suffices hgroup : ∀ g : ScriptGroup, (g.addEach w r identities).2.1.All P from hgroup { entity := e }
  induction identities generalizing w r with
  | nil => exact fun _ => h
  | cons identity rest ih => exact fun g => ih (h.add hP hattach w g identity) _ _

/-- Giving up the scripts of a group detaches its entity from them. -/
theorem releaseEach (h : r.All P) (hP : Script.Inborn P)
    (hdetach : ∀ (w : Workspace η) (s : Script) (e : Entity), P s → P (s.detach w e).2.1)
    (w : Workspace η) (e : Entity) (policy : TeardownPolicy) (scripts : List (String × Path)) :
    (ScriptGroup.releaseEach w r e policy scripts).2.All P := by
  induction scripts generalizing w r with
  | nil => exact h
  | cons script rest ih =>
    obtain ⟨identity, key⟩ := script
    have hleft : (ScriptGroup.leave w r e key policy).2.All P := by
      cases policy with
      | keepAttachments => exact h
      | detachEntity => exact h.visit w key fun s hs => hdetach w s e hs
    rw [ScriptGroup.releaseEach_cons]
    exact ih (hleft.release hP _ identity) _

theorem teardown (h : r.All P) (hP : Script.Inborn P)
    (hdetach : ∀ (w : Workspace η) (s : Script) (e : Entity), P s → P (s.detach w e).2.1)
    (w : Workspace η) (g : ScriptGroup) (policy : TeardownPolicy) : (g.teardown w r policy).2.All P :=
  h.releaseEach hP hdetach w g.entity policy g.scripts

end All

end Registry

end HotReload
