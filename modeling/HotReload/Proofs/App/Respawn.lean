import HotReload.App.App
import HotReload.Proofs.Registry.Return
import HotReload.Proofs.Script.Loading
import HotReload.Proofs.Lists

/-! # Apps whose entities come and go

    To a registry an app is a group session like any other.  Removing an entity takes its
    group down, adding one forms a group, and a step polls the scripts of all groups.

    So a script whose last entity is removed goes out of service, and it comes back
    with the next entity that lists it, which is not always as its source is by then. -/

namespace HotReload

variable {η : Type}

/-! ## Section 1 - groups that bring a script back -/

namespace ScriptGroup
variable [Host η] {k : Path}

/-- A group keeps what it holds while it gets more. -/
theorem holds_add {g : ScriptGroup} (h : g.holds k = true) (w : Workspace η) (r : Registry)
    (identity : String) : (add w r g identity).2.2.holds k = true := by
  rcases add_cases w r g identity with ⟨error, w', line, -, heq⟩ |
    ⟨w', r', key, -, -, heq⟩ | ⟨w', r', key, -, -, heq⟩ <;> rw [heq]
  · exact h
  · exact h
  · simp only [holds, List.any_append, Bool.or_eq_true] at h ⊢
    exact .inl h

theorem holds_addEach {g : ScriptGroup} (h : g.holds k = true) (w : Workspace η) (r : Registry)
    (identities : List String) : (addEach w r g identities).2.2.holds k = true := by
  induction identities generalizing w r g with
  | nil => exact h
  | cons identity rest ih => exact ih (holds_add h w r identity) _ _

/-- A script that comes into service while a group is formed is one that the group holds. -/
theorem serves_add {w : Workspace η} {r : Registry} {g : ScriptGroup} {identity : String}
    (h : (add w r g identity).2.1.Serves k) : r.Serves k ∨ (add w r g identity).2.2.holds k = true := by
  rcases add_cases w r g identity with ⟨error, w', line, -, heq⟩ |
    ⟨w', r', key, hresolve, hholds, heq⟩ | ⟨w', r', key, hresolve, -, heq⟩ <;> rw [heq] at h ⊢
  · exact .inl h
  · refine (Registry.serves_of_resolve hresolve (Registry.serves_of_release h)).imp_right fun hsame => ?_
    rw [holds_congr hsame]
    exact hholds
  · rw [Registry.serves_congr (standing?_attach w' r' g.entity key k)] at h
    refine (Registry.serves_of_resolve hresolve h).imp_right fun hsame => ?_
    simp [holds, hsame.symm]

theorem serves_addEach {w : Workspace η} {r : Registry} {g : ScriptGroup} {identities : List String}
    (h : (addEach w r g identities).2.1.Serves k) :
    r.Serves k ∨ (addEach w r g identities).2.2.holds k = true := by
  induction identities generalizing w r g with
  | nil => exact .inl h
  | cons identity rest ih =>
    rcases ih h with hfirst | hheld
    · exact (serves_add hfirst).imp_right fun hheld => holds_addEach hheld _ _ rest
    · exact .inr hheld

end ScriptGroup

/-! ## Section 2 - apps -/

namespace Registry
variable [Host η]

/-- A poll of two lists is a poll of the one and then of the other. -/
theorem updateEach_append (w : Workspace η) (r : Registry) (keys keys' : List Path) :
    (r.updateEach w (keys ++ keys')).1 = ((r.updateEach w keys).2.1.updateEach (r.updateEach w keys).1 keys').1 ∧
      (r.updateEach w (keys ++ keys')).2.1 =
        ((r.updateEach w keys).2.1.updateEach (r.updateEach w keys).1 keys').2.1 := by
  induction keys generalizing w r with
  | nil => exact ⟨rfl, rfl⟩
  | cons key keys ih => exact ih _ _

end Registry

namespace App

/-- The registry of an app, with its groups. -/
def session (a : App) : GroupSession Stage := ⟨a.workspace, a.registry, a.groups⟩

/-- Edits one after the other, each with what watchers see of it. -/
def edits (a : App) (changes : List (Files × List Touch)) : App :=
  changes.foldl (fun a change => a.setFiles change.1 change.2) a

theorem session_edits (a : App) (changes : List (Files × List Touch)) :
    (a.edits changes).session = a.session.run (changes.map fun change => .edit change.1 change.2) := by
  induction changes generalizing a with
  | nil => rfl
  | cons change rest ih => exact ih (a.setFiles change.1 change.2)

theorem isOutside_edits (changes : List (Files × List Touch)) :
    ∀ d ∈ changes.map fun change => (.edit change.1 change.2 : GroupOp Stage), d.isOutside = true := by
  intro d hd
  obtain ⟨change, -, rfl⟩ := List.mem_map.1 hd
  rfl

/-- Removing an entity takes its group down. -/
theorem session_despawn {a : App} {e : Entity} {g : ScriptGroup}
    (h : a.groups.find? (fun g => g.entity = e) = some g) :
    ∃ i w, a.groups[i]? = some g ∧
      (a.despawn e).1.session = a.session.run [.teardown i .detachEntity, .others w] := by
  obtain ⟨i, hi, herase⟩ := eraseP_of_find? h
  refine ⟨i, (a.despawn e).1.workspace, hi, ?_⟩
  simp only [GroupSession.run_cons, GroupSession.run_nil]
  rw [GroupSession.step_teardown_of_some (c := a.session) hi]
  unfold despawn session
  rw [h]
  simp only [herase]
  rfl

/-- An entity without a group leaves the registry alone. -/
theorem registry_despawn_of_none {a : App} {e : Entity}
    (h : a.groups.find? (fun g => g.entity = e) = none) : (a.despawn e).1.registry = a.registry := by
  unfold despawn
  rw [h]

/-- Adding an entity sets the registry to work. -/
theorem worked_spawn (a : App) (name : String) (scripts : List String) :
    Registry.Worked { a.workspace with host := (a.workspace.host.spawnNamed name).1 } a.registry
      (a.spawn name scripts).1.workspace (a.spawn name scripts).1.registry :=
  ScriptGroup.worked_form _ _ (a.workspace.host.spawnNamed name).2 scripts

theorem session_spawn (a : App) (name : String) (scripts : List String) :
    ∃ w e, (a.spawn name scripts).1.session = a.session.run [.others w, .form e scripts] := by
  exact ⟨{ a.workspace with host := (a.workspace.host.spawnNamed name).1 },
    (a.workspace.host.spawnNamed name).2, rfl⟩

theorem session_pollEach (a : App) (groups : List ScriptGroup) :
    (a.pollEach groups).1.workspace = (a.registry.updateEach a.workspace (groups.flatMap ScriptGroup.keys)).1 ∧
      (a.pollEach groups).1.registry =
        (a.registry.updateEach a.workspace (groups.flatMap ScriptGroup.keys)).2.1 := by
  induction groups generalizing a with
  | nil => exact ⟨rfl, rfl⟩
  | cons g rest ih =>
    obtain ⟨hworkspace, hregistry⟩ := a.registry.updateEach_append a.workspace g.keys (rest.flatMap ScriptGroup.keys)
    rw [List.flatMap_cons, hworkspace, hregistry]
    exact ih _

theorem groups_pollEach (a : App) (groups : List ScriptGroup) :
    (a.pollEach groups).1.groups = a.groups ∧ (a.pollEach groups).1.settings = a.settings := by
  induction groups generalizing a with
  | nil => exact ⟨rfl, rfl⟩
  | cons g rest ih => exact ih _

/-- A step polls the scripts of all groups, and takes the events in the end. -/
theorem registry_step (a : App) (dt : Float32) :
    (a.step dt).1.registry =
      (a.session.run [.poll (a.groups.flatMap ScriptGroup.keys), .drain]).registry :=
  congrArg (fun r => r.drainEvents.1) (a.session_pollEach a.groups).2

/-- An entity is removed, the files are edited, and another entity is added. -/
def respawn (a : App) (e : Entity) (changes : List (Files × List Touch)) (name : String)
    (scripts : List String) : App :=
  (((a.despawn e).1.edits changes).spawn name scripts).1

/-- What a session goes through after a group is taken down and before another is formed. -/
def meanwhile (w w' : Workspace Stage) (changes : List (Files × List Touch)) : List (GroupOp Stage) :=
  .others w :: changes.map (fun change => .edit change.1 change.2) ++ [.others w']

theorem isOutside_meanwhile (w w' : Workspace Stage) (changes : List (Files × List Touch)) :
    ∀ d ∈ meanwhile w w' changes, d.isOutside = true := by
  intro d hd
  simp only [meanwhile, List.cons_append, List.mem_cons, List.mem_append, List.not_mem_nil, or_false] at hd
  rcases hd with rfl | hedit | rfl
  · rfl
  · exact isOutside_edits changes d hedit
  · rfl

/-- To the session that is a group taken down, edits, and a group formed. -/
theorem session_respawn {a : App} {e : Entity} {g : ScriptGroup}
    (hg : a.groups.find? (fun g => g.entity = e) = some g) (changes : List (Files × List Touch))
    (name : String) (scripts : List String) :
    ∃ i w w' e', a.groups[i]? = some g ∧
      (a.despawn e).1.registry = (a.session.step (.teardown i .detachEntity)).registry ∧
      (a.respawn e changes name scripts).session =
        ((a.session.step (.teardown i .detachEntity)).run (meanwhile w w' changes)).step
          (.form e' scripts) := by
  obtain ⟨i, w, hi, hdespawn⟩ := session_despawn hg
  obtain ⟨w', e', hspawn⟩ := session_spawn ((a.despawn e).1.edits changes) name scripts
  refine ⟨i, w, w', e', hi, congrArg GroupSession.registry hdespawn, ?_⟩
  rw [respawn, hspawn, session_edits, hdespawn]
  simp only [meanwhile, List.cons_append, GroupSession.run_cons, GroupSession.run_nil, GroupSession.run_append]

/-- The only entity with a script is removed, and another entity with the script is added. -/
theorem serves_respawn {a : App} {e : Entity} {g : ScriptGroup} {identity identity' : String}
    {changes : List (Files × List Touch)} {name : String} {key k : Path}
    (hg : a.groups.find? (fun g => g.entity = e) = some g) (hscripts : g.scripts = [(identity, key)])
    (honly : a.registry.standing? k = some (1, false))
    (hout : k.Same (a.registry.keyOf a.workspace.files identity))
    (hback : k.Same (a.registry.keyOf (a.respawn e changes name [identity']).workspace.files identity')) :
    a.registry.Serves k ∧ (a.despawn e).1.registry.Rests k ∧
      (a.respawn e changes name [identity']).registry.Serves k := by
  obtain ⟨i, w, w', e', hi, hdespawn, hrespawn⟩ := session_respawn hg changes name [identity']
  let c := a.session.step (.teardown i .detachEntity)
  have hregistry : c.registry = (g.teardown a.workspace a.registry .detachEntity).2 :=
    congrArg GroupSession.registry (GroupSession.step_teardown_of_some (c := a.session) hi .detachEntity)
  have hleft : c.registry.Rests k := by
    rw [hregistry, Registry.rests_congr (ScriptGroup.standing?_teardown_of_single hscripts _ _ _ k)]
    exact Registry.rests_release honly hout
  have hgap := (GroupSession.outside_run (isOutside_meanwhile w w' changes)).2.2 hleft
  have hsetting : (c.run (meanwhile w w' changes)).registry.setting = a.registry.setting :=
    (GroupSession.setting_run _ _).trans (a.session.setting_step _)
  have hfiles : (a.respawn e changes name [identity']).workspace.files =
      (c.run (meanwhile w w' changes)).workspace.files :=
    (congrArg (fun c => c.workspace.files) hrespawn).trans (GroupSession.files_step _ rfl)
  rw [hfiles, ← Registry.keyOf_congr hsetting rfl] at hback
  obtain ⟨w'', r', key', hresolve, hserves⟩ := Registry.serves_resolve hgap hback
  refine ⟨Registry.serves_iff.2 ⟨1, honly⟩, hdespawn ▸ hleft, ?_⟩
  rw [show (a.respawn e changes name [identity']).registry = _ from congrArg GroupSession.registry hrespawn]
  exact (Registry.serves_congr ((ScriptGroup.form_of_resolve hresolve e').2.2 k)).2 hserves

/-- The workspace in which the next step comes to a script. -/
def workspaceAt (a : App) (k : Path) : Workspace Stage :=
  a.session.workspaceAt (a.groups.flatMap ScriptGroup.keys) k

/-- What an absence looks like in an app: the entity whose group is the last to use a script is removed,
    and the script comes into service again with another entity. -/
theorem absence_respawn {a : App} {e : Entity} {changes : List (Files × List Touch)} {name : String}
    {scripts : List String} {k : Path} (hpresent : a.registry.Serves k)
    (haway : (a.despawn e).1.registry.Rests k)
    (hreturns : (a.respawn e changes name scripts).registry.Serves k) :
    ∃ out gap back, a.session.Absence k out gap back ∧ (a.session.step out).asks k gap = false ∧
      (a.respawn e changes name scripts).session = ((a.session.step out).run gap).step back ∧
      ∃ key ∈ (a.respawn e changes name scripts).groups.flatMap ScriptGroup.keys, k.Same key := by
  cases hg : a.groups.find? fun g => g.entity = e with
  | none =>
    rw [registry_despawn_of_none hg] at haway
    exact absurd haway hpresent.not_rests
  | some g =>
    obtain ⟨i, w, w', e', -, hdespawn, hrespawn⟩ := session_respawn hg changes name scripts
    have houtside := isOutside_meanwhile w w' changes
    have hregistry := congrArg GroupSession.registry hrespawn
    have habsence : a.session.Absence k (.teardown i .detachEntity) (meanwhile w w' changes)
        (.form e' scripts) :=
      .of_outside hpresent (hdespawn ▸ haway) houtside (hregistry ▸ hreturns)
    refine ⟨_, _, _, habsence, (GroupSession.outside_run houtside).1, hrespawn, ?_⟩
    -- what the new group has brought back is among its scripts
    have hheld := (ScriptGroup.serves_addEach habsence.returns).resolve_left
      fun hserves => hserves.not_rests (habsence.away _ [] (by simp))
    obtain ⟨key, hkey, hsame⟩ := ScriptGroup.holds_iff.1 hheld
    rw [show (a.respawn e changes name scripts).groups = _ from congrArg GroupSession.groups hrespawn]
    exact ⟨key, List.mem_flatMap.2 ⟨_, List.mem_append_right _ List.mem_cons_self, hkey⟩, hsame.symm⟩

end App

/-! ## Section 3 - the main theorem -/

/-- After its return and the next poll a script is up to date exactly if a change was owed an answer when it
    went out of service, or a reload was requested meanwhile, or it was up to date all along with what
    its source reads by now.  In an app it goes with the last entity that uses it and comes back with
    another one, and the next step is the poll; only edits come in between. -/
theorem upToDate_after_return_iff (k : Path) :
    (∀ {η : Type} [Host η] (c : GroupSession η) (out : GroupOp η) (gap : List (GroupOp η)) (back : GroupOp η)
      (keys : List Path), c.Absence k out gap back → (∃ key ∈ keys, k.Same key) →
      let c' := ((c.step out).run gap).step back
      ∃ s s', c.registry.script? k = some s ∧ (c'.step (.poll keys)).registry.script? k = some s' ∧
        (c'.workspaceAt keys k).files = c'.workspace.files ∧
        (s'.UpToDate (c'.workspaceAt keys k) ↔ s.signal.raised = true ∨ (c.step out).asks k gap = true ∨
          s.UpToDate (c'.workspaceAt keys k))) ∧
    (∀ (a : App) (e : Entity) (changes : List (Files × List Touch)) (name : String) (scripts : List String)
      (dt : Float32),
      let a' := a.respawn e changes name scripts
      a.registry.Serves k → (a.despawn e).1.registry.Rests k → a'.registry.Serves k →
      ∃ s s', a.registry.script? k = some s ∧ (a'.step dt).1.registry.script? k = some s' ∧
        (a'.workspaceAt k).files = a'.workspace.files ∧
        (s'.UpToDate (a'.workspaceAt k) ↔ s.signal.raised = true ∨ s.UpToDate (a'.workspaceAt k))) := by
  refine ⟨?_, ?_⟩
  · intro η _ c out gap back keys habsence hk
    obtain ⟨s, s', hs, hs', hiff⟩ := habsence.polled hk
    exact ⟨s, s', hs, hs', GroupSession.files_workspaceAt _ keys k, hiff⟩
  · intro a e changes name scripts dt a' hpresent haway hreturns
    obtain ⟨out, gap, back, habsence, hasks, hsession, hk⟩ := App.absence_respawn hpresent haway hreturns
    obtain ⟨s, s', hs, hs', hiff⟩ := habsence.polled hk
    rw [← hsession] at hs' hiff
    rw [hasks] at hiff
    -- taking the events in the end does not touch the code
    obtain ⟨e', rfl, hdrained⟩ := Registry.script?_of_find? (Registry.find?_drainEvents _ k) hs'
    refine ⟨s, e'.script.drainEvents.1, hs, ?_, GroupSession.files_workspaceAt a'.session _ k, ?_⟩
    · rw [App.registry_step]
      exact hdrained
    · have hcarries := Script.carries_drainEvents e'.script
      rw [Script.upToDate_congr hcarries.code hcarries.path]
      unfold App.workspaceAt
      simpa using hiff

/-! ### A source that is edited meanwhile -/

section edits
open Loading (spinFiles topSource Made)
open Script (spinSource spinWorkspace)

theorem keyOf_spin (content : String) : Registry.rooted.keyOf (spinFiles content) "spin" = ⟨"/spin"⟩ := by
  have hpath : Registry.rooted.resolvePath "spin" = ⟨"/spin"⟩ := by decide +kernel
  rw [Registry.keyOf_rooted hpath, Loading.normalize_spin]

theorem content_spin {w : Workspace Stage} {content : String} (hfiles : w.files = spinFiles content) :
    w.content ⟨"/spin"⟩ = some content := by
  rw [Workspace.content_eq_some, Workspace.readSource, hfiles, Script.readText_spin rfl]

/-- The source is taken into use for the first time. -/
theorem resolve_spin (host : Stage) : ∃ w' s,
    Registry.rooted.resolve { spinWorkspace with host } "spin" = (w', { Registry.rooted with
      entries := [{ key := ⟨"/spin"⟩, identity := "spin", script := s }] }, .ok ⟨"/spin"⟩) ∧
    Made ⟨"/spin"⟩ s ∧ s.source = some spinSource ∧ s.signal.raised = false := by
  let w : Workspace Stage := { spinWorkspace with host }
  have hread : w.readSource ⟨"/spin"⟩ = .ok spinSource :=
    Workspace.content_eq_some.1 (content_spin rfl)
  have hx : (w.extract spinSource).2 = .ok ((spinWorkspace.extract spinSource).2.toOption.getD default) :=
    (Workspace.extract_congr (w := spinWorkspace) rfl spinSource).trans
      (eq_ok_of_isOk (by decide +kernel))
  have hkey : Registry.rooted.keyOf w.files "spin" = ⟨"/spin"⟩ := keyOf_spin spinSource
  have hnew : Registry.rooted.find? ⟨"/spin"⟩ = none := rfl
  obtain ⟨w', s, hresolve, hcode, hfooting⟩ := Registry.resolve_new hkey hnew hread hx
  have htyped : s.compiled.isSome = true := congrArg (fun code => code.1.isSome) hcode
  have hsource : s.source = some spinSource := congrArg Prod.snd hcode
  refine ⟨w', s, hresolve, ⟨?_, ?_, htyped, by rw [hsource]; rfl⟩, hsource, ?_⟩
  · exact congrArg Script.Footing.path hfooting
  · exact congrArg Script.Footing.discarded hfooting
  · exact congrArg (fun footing => footing.signal.raised) hfooting

/-- Such a script is up to date as long as the source is what it was. -/
theorem upToDate_spin {s : Script} (hmade : Made ⟨"/spin"⟩ s) (hsource : s.source = some spinSource)
    {w : Workspace Stage} {content : String} (hfiles : w.files = spinFiles content) :
    s.UpToDate w ↔ spinSource = content := by
  rw [hmade.upToDate_iff, hsource, content_spin hfiles, Option.some.injEq]

/-- A session with the one script. -/
def spinSession : GroupSession Stage := (GroupSession.fresh spinWorkspace .rooted).run [.resolve "spin"]

theorem files_spinSession : spinSession.workspace.files = spinFiles spinSource :=
  GroupSession.files_step (GroupSession.fresh spinWorkspace .rooted) (d := .resolve "spin") rfl

theorem script?_spin : ∃ s, spinSession.registry.script? ⟨"/spin"⟩ = some s ∧
    spinSession.registry.standing? ⟨"/spin"⟩ = some (1, false) ∧
    Made ⟨"/spin"⟩ s ∧ s.source = some spinSource ∧ s.signal.raised = false := by
  obtain ⟨w, s, hresolve, hmade, hsource, hdown⟩ := resolve_spin {}
  have hregistry : spinSession.registry =
      { Registry.rooted with entries := [{ key := ⟨"/spin"⟩, identity := "spin", script := s }] } :=
    congrArg (fun resolved => resolved.2.1) hresolve
  have hsame : Path.Same ⟨"/spin"⟩ ⟨"/spin"⟩ := .refl _
  rw [hregistry]
  refine ⟨s, ?_, (Registry.standing?_resolve hresolve _).trans (if_pos hsame), hmade, hsource, hdown⟩
  simp [Registry.script?, Registry.find?, hsame]

/-- The script is given up, its source is edited, and the script is taken into use again. -/
theorem absence_spin {gap : List (GroupOp Stage)} {content : String} (hgap : ∀ d ∈ gap, d.isOutside = true)
    (hfiles : ((spinSession.step (.release "spin")).run gap).workspace.files = spinFiles content) :
    spinSession.Absence ⟨"/spin"⟩ (.release "spin") gap (.resolve "spin") := by
  have hsetting : spinSession.registry.setting = Registry.rooted.setting := GroupSession.setting_run _ _
  have hkey : ∀ {f : Files} {content : String}, f = spinFiles content →
      Path.Same ⟨"/spin"⟩ (spinSession.registry.keyOf f "spin") := by
    rintro f content rfl
    rw [Registry.keyOf_congr hsetting rfl, keyOf_spin]
  obtain ⟨-, -, honly, -⟩ := script?_spin
  exact GroupSession.Absence.of_release honly (hkey files_spinSession) hgap (hkey hfiles)

/-- The session when the script has come back. -/
def spinReturned (gap : List (GroupOp Stage)) : GroupSession Stage :=
  ((spinSession.step (.release "spin")).run gap).step (.resolve "spin")

/-- A poll after the return finds the files as the last edit has left them. -/
theorem files_spinReturned {gap : List (GroupOp Stage)} {content : String}
    (hfiles : ((spinSession.step (.release "spin")).run gap).workspace.files = spinFiles content) :
    ((spinReturned gap).workspaceAt [⟨"/spin"⟩] ⟨"/spin"⟩).files = spinFiles content := by
  rw [GroupSession.files_workspaceAt, spinReturned, GroupSession.files_step _ rfl, hfiles]

theorem write_spin (content content' : String) :
    (spinFiles content).write ⟨"/spin"⟩ content'.toUTF8 = ⟨spinFiles content', true, [⟨0, "spin"⟩]⟩ :=
  Files.write_file (by decide +kernel) Script.isName_spin (by decide +kernel) (by decide +kernel) rfl _

/-- Saving a source with one content after the other. -/
def saves (p : Path) (f : Files) : List String → List (GroupOp Stage)
  | [] => []
  | content :: contents =>
    let saved := f.write p content.toUTF8
    .edit saved.files saved.touches :: saves p saved.files contents

/-- Scripts do not always come back with the code that their source has by then: not if the last user releases
    one, its source is saved, and nothing else happens until the script is resolved again and polled. -/
theorem runs_stale_code : ¬ ∀ (w : Workspace Stage) (r : Registry) (ops : List (GroupOp Stage)) (k : Path)
    (identity : String) (contents : List String),
    let c := (GroupSession.fresh w r).run ops
    let released := c.step (.release identity)
    let gap := saves k released.workspace.files contents
    let c' := (released.run gap).step (.resolve identity)
    c.Absence k (.release identity) gap (.resolve identity) →
      ∃ s, (c'.step (.poll [k])).registry.script? k = some s ∧ s.UpToDate (c'.workspaceAt [k] k) := by
  intro hall
  let gap := saves ⟨"/spin"⟩ (spinSession.step (.release "spin")).workspace.files [topSource]
  have hstart : (spinSession.step (.release "spin")).workspace.files = spinFiles spinSource :=
    (GroupSession.files_step spinSession rfl).trans files_spinSession
  have hgap : gap = [.edit (spinFiles topSource) [⟨0, "spin"⟩]] := by
    show saves ⟨"/spin"⟩ (spinSession.step (.release "spin")).workspace.files [topSource] = _
    rw [hstart, saves, write_spin]
    rfl
  have houtside : ∀ d ∈ gap, d.isOutside = true := by
    rw [hgap]
    exact List.forall_mem_singleton.2 rfl
  have hfiles : ((spinSession.step (.release "spin")).run gap).workspace.files = spinFiles topSource := by
    rw [hgap]
    rfl
  have habsence := absence_spin houtside hfiles
  obtain ⟨s₁, hs₁, hfresh⟩ := hall spinWorkspace .rooted [.resolve "spin"] _ _ [topSource] habsence
  obtain ⟨s, s₂, hs, hs₂, hiff⟩ := habsence.polled ⟨_, List.mem_singleton_self _, .refl _⟩
  obtain rfl : s₁ = s₂ := Option.some.inj (hs₁.symm.trans hs₂)
  obtain ⟨s', hs', -, hmade, hsource, hdown⟩ := script?_spin
  obtain rfl : s = s' := Option.some.inj (hs.symm.trans hs')
  have hstale := upToDate_spin hmade hsource (files_spinReturned hfiles)
  have hedited : spinSource ≠ topSource := by decide +kernel
  -- nobody has asked for a reload, the signal was down, and the text is another one
  have hasks : (spinSession.step (.release "spin")).asks ⟨"/spin"⟩ gap = false := (GroupSession.outside_run houtside).1
  rcases hiff.1 hfresh with hup | hasked | hsame
  · cases hdown.symm.trans hup
  · cases hasks.symm.trans hasked
  · exact hedited (hstale.1 hsame)

/-- An edit that is undone. -/
def undoneEdit : List (Files × List Touch) := [(spinFiles topSource, []), (spinFiles spinSource, [])]

/-- The session when the script has come back after this edit. -/
def undoneSession : GroupSession Stage := spinReturned (undoneEdit.map fun change => .edit change.1 change.2)

/-- An app with an entity that has the one script. -/
def spinApp : App :=
  (App.spawn { settings := {}, workspace := spinWorkspace, registry := .rooted } "top" ["spin"]).1

theorem groups_spin : ∃ g, spinApp.groups.find? (fun g => g.entity = ⟨0, 1⟩) = some g ∧
    g.scripts = [("spin", ⟨"/spin"⟩)] := by
  obtain ⟨w, s, hresolve, -, -, -⟩ := resolve_spin (({} : Stage).spawnNamed "top").1
  have hgroups : spinApp.groups = [{ entity := ⟨0, 1⟩, scripts := [("spin", ⟨"/spin"⟩)] }] :=
    congrArg (fun g => [g]) (ScriptGroup.form_of_resolve hresolve ⟨0, 1⟩).1
  rw [hgroups]
  exact ⟨_, rfl, rfl⟩

theorem script?_spinApp : ∃ s s', spinApp.registry.script? ⟨"/spin"⟩ = some s' ∧ s.Carries s' ∧
    spinApp.registry.standing? ⟨"/spin"⟩ = some (1, false) ∧ Made ⟨"/spin"⟩ s ∧ s.source = some spinSource := by
  obtain ⟨w, s, hresolve, hmade, hsource, -⟩ := resolve_spin (({} : Stage).spawnNamed "top").1
  obtain ⟨-, hworked, hstanding⟩ := ScriptGroup.form_of_resolve hresolve ⟨0, 1⟩
  have hsame : Path.Same ⟨"/spin"⟩ ⟨"/spin"⟩ := .refl _
  obtain ⟨s', hs', hcarries⟩ := hworked.carries.script? (k := ⟨"/spin"⟩) (s := s)
    (by simp [Registry.script?, Registry.find?, hsame])
  refine ⟨s, s', hs', hcarries, ?_, hmade, hsource⟩
  exact (hstanding _).trans ((Registry.standing?_resolve hresolve _).trans (if_pos hsame))

/-- But they do if nothing has come of the edits. -/
theorem upToDate_after_undone_edit :
    (∃ s, (undoneSession.step (.poll [⟨"/spin"⟩])).registry.script? ⟨"/spin"⟩ = some s ∧
      s.UpToDate (undoneSession.workspaceAt [⟨"/spin"⟩] ⟨"/spin"⟩)) ∧
    (∃ s, ((spinApp.respawn ⟨0, 1⟩ undoneEdit "top" ["spin"]).step 0).1.registry.script? ⟨"/spin"⟩ = some s ∧
      s.UpToDate ((spinApp.respawn ⟨0, 1⟩ undoneEdit "top" ["spin"]).workspaceAt ⟨"/spin"⟩)) := by
  refine ⟨?_, ?_⟩
  · have hfiles : ((spinSession.step (.release "spin")).run (undoneEdit.map fun change =>
        .edit change.1 change.2)).workspace.files = spinFiles spinSource := rfl
    obtain ⟨s, s', hs, hs', -, hiff⟩ := (upToDate_after_return_iff ⟨"/spin"⟩).1 spinSession _ _ _ [⟨"/spin"⟩]
      (absence_spin (App.isOutside_edits undoneEdit) hfiles) ⟨_, List.mem_cons_self, .refl _⟩
    obtain ⟨s₀, hs₀, -, hmade, hsource, -⟩ := script?_spin
    obtain rfl : s = s₀ := Option.some.inj (hs.symm.trans hs₀)
    refine ⟨s', hs', hiff.2 (.inr (.inr ?_))⟩
    exact (upToDate_spin hmade hsource (files_spinReturned hfiles)).2 rfl
  · obtain ⟨g, hg, hscripts⟩ := groups_spin
    obtain ⟨s₀, s, hs, hcarries, honly, hmade, hsource⟩ := script?_spinApp
    have hsetting : spinApp.registry.setting = Registry.rooted.setting := (App.worked_spawn _ _ _).setting
    have hstart : spinApp.workspace.files = spinFiles spinSource := (App.worked_spawn _ _ _).files
    have hedited : ((spinApp.despawn ⟨0, 1⟩).1.edits undoneEdit).workspace.files = spinFiles spinSource := rfl
    have hend : (spinApp.respawn ⟨0, 1⟩ undoneEdit "top" ["spin"]).workspace.files = spinFiles spinSource :=
      (App.worked_spawn _ _ _).files.trans hedited
    have hkey : ∀ {f : Files}, f = spinFiles spinSource →
        Path.Same ⟨"/spin"⟩ (spinApp.registry.keyOf f "spin") := by
      rintro f rfl
      rw [Registry.keyOf_congr hsetting rfl, keyOf_spin]
    obtain ⟨hpresent, haway, hreturns⟩ := App.serves_respawn hg hscripts honly (hkey hstart) (hkey hend)
    obtain ⟨s', s'', hs', hs'', hfiles, hiff⟩ :=
      (upToDate_after_return_iff ⟨"/spin"⟩).2 spinApp ⟨0, 1⟩ undoneEdit "top" ["spin"] 0 hpresent haway hreturns
    obtain rfl : s = s' := Option.some.inj (hs.symm.trans hs')
    refine ⟨s'', hs'', hiff.2 (.inr ?_)⟩
    rw [Script.upToDate_congr hcarries.code hcarries.path]
    exact (upToDate_spin hmade hsource (hfiles.trans hend)).2 rfl

end edits

end HotReload
