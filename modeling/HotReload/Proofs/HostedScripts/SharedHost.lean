import HotReload.Proofs.HostedScripts.Correspondence
import HotReload.Proofs.HostedScripts.Tracking

/-! # A stage shared with strangers

    Scripts are not alone on their stage: others make instances there and remove
    instances, those of scripts among them.  So the notes of a script can be out of date
    in one way: it has noted down an instance that is gone.  An entity of which this is
    true is *stranded*.

    To attach an entity that is stranded does nothing, because the script takes it for
    attached.  Any other attachment that succeeds leaves the entity with exactly one
    instance of the script, of its present type.

    Whose an instance is, is decided by who has asked for it.  The makers are kept beside
    the scripts, where nothing reads them. -/

namespace HotReload

/-! ## Section 1 - incidents -/

/-- What can happen on a stage on which others make and remove instances too. -/
inductive Incident where
  | act (a : Action)
  /-- Others make an instance, which may be of the type of a script. -/
  | lodge (e : Entity) (type : BehaviourType)
  /-- Others remove an instance, which may be that of a script. -/
  | evict (r : InstanceRef)

/-- The script that is called, if one is. -/
def Incident.caller : Incident → Option Nat
  | .act (.call k _) => some k
  | _ => none

/-- Scripts on a stage, with a record of the scripts that have made the instances, by their numbers. -/
structure SharedHost where
  hosted : HostedScripts
  maker : Nat → Option Nat := fun _ => none

/-- What an incident makes of the stage and its scripts. -/
def HostedScripts.incur (c : HostedScripts) : Incident → HostedScripts
  | .act a => c.step a
  | .lodge e type => c.withStage (c.stage.addBehaviour c.workspace.context.modules e type).host
  | .evict r => c.withStage (c.stage.destroyBehaviour r).1

namespace SharedHost

/-- The beginning. -/
def fresh (w : Workspace Stage) : SharedHost := { hosted := HostedScripts.fresh w }

/-- The number of the next instance. -/
def next (c : SharedHost) : Nat := c.hosted.stage.nextInstance

/-- What an incident leads to.  The numbers that are handed out meanwhile belong to the script that is called. -/
def step (c : SharedHost) (i : Incident) : SharedHost where
  hosted := c.hosted.incur i
  maker id := if c.next ≤ id ∧ id < (c.hosted.incur i).stage.nextInstance then i.caller else c.maker id

/-- Incidents one after the other. -/
def run (c : SharedHost) (incidents : List Incident) : SharedHost := incidents.foldl step c

/-- The instances on an entity that a script has made. -/
def instancesOf (c : SharedHost) (k : Nat) (e : Entity) : List Instance :=
  (c.hosted.instancesOn e).filter fun i => c.maker i.id = some k

/-- A script has noted down an instance on an entity that is gone. -/
def Stranded (c : SharedHost) (s : Script) (e : Entity) : Prop :=
  ∃ a ∈ s.attachments, a.entity = e ∧ ∀ i ∈ c.hosted.instancesOn e, i.id ≠ a.ref.id

/-- An entity is alive and carries exactly one instance of a script, of some type. -/
def Carries (c : SharedHost) (k : Nat) (type : BehaviourType) (e : Entity) : Prop :=
  c.hosted.alive e = true ∧ ∃ i, c.instancesOf k e = [i] ∧ i.type = type

/-- The numbers of a script, those that are still to come among them. -/
def Own (c : SharedHost) (k id : Nat) : Prop := c.maker id = some k ∨ c.next ≤ id

section owners
variable {c : SharedHost} {i : Incident} {k id : Nat}

theorem maker_step_eq (c : SharedHost) (i : Incident) (id : Nat) : (c.step i).maker id =
    if c.next ≤ id ∧ id < (c.step i).next then i.caller else c.maker id :=
  rfl

/-- Numbers that have been handed out before keep their owners. -/
theorem own_step_of_lt (hlater : c.next ≤ (c.step i).next) (hid : id < c.next) :
    (c.step i).Own k id ↔ c.Own k id := by
  have hnot : ¬ c.next ≤ id := Nat.not_le.2 hid
  have hnot' : ¬ (c.step i).next ≤ id := Nat.not_le.2 (Nat.lt_of_lt_of_le hid hlater)
  simp only [Own, hnot, hnot', maker_step_eq, false_and, if_false, or_false]

/-- Those that are handed out meanwhile belong to the caller. -/
theorem own_step_of_new (hle : c.next ≤ id) (hlt : id < (c.step i).next) :
    (c.step i).Own k id ↔ i.caller = some k := by
  have hnot' : ¬ (c.step i).next ≤ id := Nat.not_le.2 hlt
  simp only [Own, hnot', maker_step_eq, hle, hlt, and_self, if_true, or_false]

/-- What is to come counts as anybody's, so the caller owns what it has owned before. -/
theorem own_step_of_called (hcalled : i.caller = some k) (hlater : c.next ≤ (c.step i).next) :
    (c.step i).Own k = c.Own k := by
  funext id
  refine propext ?_
  rcases Nat.lt_or_ge id c.next with hold | hnew
  · exact own_step_of_lt hlater hold
  · refine ⟨fun _ => .inr hnew, fun _ => ?_⟩
    rcases Nat.lt_or_ge id (c.step i).next with hcame | hcoming
    · exact (own_step_of_new hnew hcame).2 hcalled
    · exact .inr hcoming

theorem maker_step (h : (c.step i).maker id = some k) : i.caller = some k ∨ c.maker id = some k := by
  rw [maker_step_eq] at h
  split at h
  · exact .inl h
  · exact .inr h

/-- An incident by which nothing happens. -/
theorem step_of_idle (h : c.hosted.incur i = c.hosted) : c.step i = c := by
  have hmaker : (c.step i).maker = c.maker := by
    funext id
    have hempty : ¬ (c.next ≤ id ∧ id < c.hosted.stage.nextInstance) := fun hin => Nat.not_lt.2 hin.1 hin.2
    simp only [step, h, hempty, if_false]
  exact congrArg₂ SharedHost.mk h hmaker

end owners

/-! ## Section 2 - the invariant -/

/-- Every script keeps track of the instances that it has made. -/
structure Tracked (c : SharedHost) : Prop where
  orderly : c.hosted.stage.Orderly
  settled : ∀ s ∈ c.hosted.scripts, s.Settled
  makers : ∀ id k, c.maker id = some k → k < c.hosted.scripts.length
  tracks : ∀ (k : Nat) s, c.hosted.scripts[k]? = some s → s.Tracks (c.Own k) c.hosted.stage

theorem tracked_fresh (w : Workspace Stage) : (fresh w).Tracked where
  orderly := Stage.orderly_empty
  settled := by simp [fresh, HostedScripts.fresh]
  makers := by simp [fresh]
  tracks := by simp [fresh, HostedScripts.fresh]

namespace Tracked
variable {c : SharedHost} {i : Incident}

/-- A script keeps track of what it has made while somebody else is at work. -/
theorem others (h : c.Tracked) (hleads : c.hosted.stage.Leads (c.hosted.incur i).stage) {k : Nat} {s : Script}
    (hk : c.hosted.scripts[k]? = some s) (hother : i.caller ≠ some k) :
    s.Tracks ((c.step i).Own k) (c.step i).hosted.stage :=
  (h.tracks k s hk).leads hleads (fun _ hid => own_step_of_lt hleads.later hid)
    (fun _ hle hlt hown => hother ((own_step_of_new hle hlt).1 hown)) (fun _ hle => .inr hle)

/-- Scripts that nobody calls stay as they are. -/
theorem stand (h : c.Tracked) (hscripts : (c.hosted.incur i).scripts = c.hosted.scripts)
    (hcaller : i.caller = none) (hleads : c.hosted.stage.Leads (c.hosted.incur i).stage) :
    (c.step i).Tracked where
  orderly := hleads.orderly
  settled := by
    show ∀ s ∈ (c.hosted.incur i).scripts, s.Settled
    rw [hscripts]
    exact h.settled
  makers := by
    intro id k hmaker
    show k < (c.hosted.incur i).scripts.length
    rw [hscripts]
    rcases maker_step hmaker with hcalled | hold
    · rw [hcaller] at hcalled
      cases hcalled
    · exact h.makers id k hold
  tracks := by
    intro k s hk
    have hbefore : c.hosted.scripts[k]? = some s := hscripts ▸ hk
    exact h.others hleads hbefore (by simp [hcaller])

/-- A script that is loaded has nothing of its own yet. -/
theorem load (h : c.Tracked) (identity : String) (p : Path) (options : ScriptOptions) :
    (c.step (.act (.load identity p options))).Tracked := by
  have hhost := Script.host_load c.hosted.workspace identity p options
  cases hload : Script.load c.hosted.workspace identity p options with
  | mk w result =>
    rw [hload] at hhost
    have hleads : c.hosted.stage.Leads w.host := .of_world h.orderly (by rw [hhost]; rfl) (by rw [hhost]; rfl)
    cases result with
    | error error =>
      have hstep : c.hosted.incur (.act (.load identity p options)) = ⟨w, c.hosted.scripts⟩ :=
        HostedScripts.step_load_of_error hload
      exact h.stand (by rw [hstep]) rfl (by rw [hstep]; exact hleads)
    | ok s =>
      have hstep : c.hosted.incur (.act (.load identity p options)) = ⟨w, c.hosted.scripts ++ [s]⟩ :=
        HostedScripts.step_load_of_ok hload
      have hstage : c.hosted.stage.Leads (c.hosted.incur (.act (.load identity p options))).stage := by
        rw [hstep]
        exact hleads
      obtain ⟨⟨type, hc⟩, ha, hs⟩ := Script.load_fields (by rw [hload])
      have hmakers : ∀ id k, (c.step (.act (.load identity p options))).maker id = some k →
          k < c.hosted.scripts.length := fun id k hmaker =>
        h.makers id k ((maker_step hmaker).resolve_left nofun)
      constructor
      · exact hstage.orderly
      · show ∀ t ∈ (c.hosted.incur _).scripts, t.Settled
        rw [hstep]
        intro t ht
        rcases List.mem_append.1 ht with hold | hnew
        · exact h.settled t hold
        · rw [List.mem_singleton.1 hnew]
          exact .of_some hc hs (by simp [Script.attached, ha])
      · intro id k hmaker
        show k < (c.hosted.incur _).scripts.length
        rw [hstep, List.length_append]
        exact Nat.lt_add_right 1 (hmakers id k hmaker)
      · intro k t hk
        have hk' : (c.hosted.scripts ++ [s])[k]? = some t := by
          have hafter : (c.hosted.incur (.act (.load identity p options))).scripts[k]? = some t := hk
          rwa [hstep] at hafter
        by_cases hold : k < c.hosted.scripts.length
        · rw [List.getElem?_append_left hold] at hk'
          exact h.others hstage hk' nofun
        · have hlast : t = s := by
            rw [List.getElem?_append_right (Nat.le_of_not_lt hold)] at hk'
            exact List.mem_singleton.1 (List.mem_of_getElem? hk')
          rw [hlast]
          -- the new script has no part in the host yet: every maker of an instance is an older one
          refine .of_nil hstage.orderly (fun _ hle => .inr hle) (fun e tag htag hown => ?_) ha
          rcases hown with hmade | hcoming
          · exact hold (hmakers _ _ hmade)
          · exact Nat.not_le.2 (hstage.orderly.below e tag htag) hcoming

/-- A call adds to what a script has made, and keeps it in view. -/
theorem call (h : c.Tracked) (k : Nat) (called : Script.Call) : (c.step (.act (.call k called))).Tracked := by
  cases hk : c.hosted.scripts[k]? with
  | none =>
    have hidle : c.hosted.incur (.act (.call k called)) = c.hosted := HostedScripts.step_call_of_none hk
    rw [step_of_idle hidle]
    exact h
  | some s =>
    have hstep : c.hosted.incur (.act (.call k called)) = ⟨(s.call c.hosted.workspace called).1,
        c.hosted.scripts.set k (s.call c.hosted.workspace called).2⟩ := HostedScripts.step_call_of_some hk
    have hlt : k < c.hosted.scripts.length := (List.getElem?_eq_some_iff.1 hk).1
    have hleads : c.hosted.stage.Leads (c.hosted.incur (.act (.call k called))).stage := by
      rw [hstep]
      exact (Stage.Leads.lasting c.hosted.stage).call (.refl h.orderly) s called
    have hown : (c.step (.act (.call k called))).Own k = c.Own k := own_step_of_called rfl hleads.later
    constructor
    · exact hleads.orderly
    · show ∀ t ∈ (c.hosted.incur _).scripts, t.Settled
      rw [hstep]
      intro t ht
      rcases List.mem_or_eq_of_mem_set ht with hold | rfl
      · exact h.settled t hold
      · exact (h.settled s (List.mem_of_getElem? hk)).call c.hosted.workspace called
    · intro id k' hmaker
      show k' < (c.hosted.incur _).scripts.length
      rw [hstep, List.length_set]
      rcases maker_step hmaker with hcaller | hold
      · cases hcaller
        exact hlt
      · exact h.makers id k' hold
    · intro k' t hk'
      have hset : (c.hosted.scripts.set k (s.call c.hosted.workspace called).2)[k']? = some t := by
        have hafter : (c.hosted.incur (.act (.call k called))).scripts[k']? = some t := hk'
        rwa [hstep] at hafter
      by_cases hsame : k = k'
      · subst hsame
        rw [List.getElem?_set_self hlt] at hset
        cases hset
        show Script.Tracks _ (c.hosted.incur _).stage _
        rw [hown, hstep]
        exact (h.tracks k s hk).call called
      · rw [List.getElem?_set_ne hsame] at hset
        exact h.others hleads hset fun hcaller => hsame (Option.some.inj hcaller)

/-- Whatever happens, every script keeps track. -/
theorem step (h : c.Tracked) (i : Incident) : (c.step i).Tracked := by
  have hstage := h.orderly
  cases i with
  | act a =>
    cases a with
    | edit files => exact h.stand rfl rfl (.refl hstage)
    | lend context => exact h.stand rfl rfl (.refl hstage)
    | delay lapse => exact h.stand rfl rfl (.refl hstage)
    | load identity p options => exact h.load identity p options
    | call k called => exact h.call k called
    | spawn name => exact h.stand rfl rfl (.spawnNamed hstage name)
    | despawn e => exact h.stand rfl rfl (.despawn hstage e)
    | tick dt => exact h.stand rfl rfl (.tick hstage _ dt)
    | share => exact h.stand rfl rfl (.follow hstage _)
  | lodge e type => exact h.stand rfl rfl (.addBehaviour hstage _ e type)
  | evict r => exact h.stand rfl rfl (.destroyBehaviour hstage r)

theorem run (h : c.Tracked) (incidents : List Incident) : (c.run incidents).Tracked := by
  induction incidents generalizing c with
  | nil => exact h
  | cons i rest ih => exact ih (h.step i)

/-! ## Section 3 - what an entity carries -/

variable {k : Nat} {s : Script} {type : BehaviourType} {e : Entity}

/-- On an entity that is attached, the script has made the instance that it has noted down and no other. -/
theorem made_iff (h : c.Tracked) (hk : c.hosted.scripts[k]? = some s) {a : Attachment} (ha : a ∈ s.attachments)
    {i : Instance} (hi : i ∈ c.hosted.instancesOn a.entity) : c.maker i.id = some k ↔ i.id = a.ref.id := by
  have htracks := h.tracks k s hk
  constructor
  · intro hmade
    have htag : (i.id, i.type) ∈ c.hosted.stage.world.tagsOn a.entity := List.mem_map_of_mem hi
    obtain ⟨hnoted, -⟩ := htracks.noted a.entity _ htag (.inl hmade)
    have hsame : ⟨a.entity, ⟨a.entity, i.id⟩⟩ = a :=
      List.inj_on_of_nodup_map (h.settled s (List.mem_of_getElem? hk)).nodup_attached hnoted ha rfl
    exact congrArg (fun a : Attachment => a.ref.id) hsame
  · intro hid
    obtain ⟨-, hown, hlt⟩ := htracks.straight a ha
    rw [hid]
    exact hown.resolve_right (Nat.not_le.2 hlt)

/-- So such an entity carries exactly one instance of the script, unless it is stranded. -/
theorem carries_iff (h : c.Tracked) (hk : c.hosted.scripts[k]? = some s) (hc : s.compiled = some type)
    (he : e ∈ s.attached) : c.Carries k type e ↔ ¬ c.Stranded s e := by
  obtain ⟨a, ha, rfl⟩ := List.mem_map.1 he
  constructor
  · rintro ⟨-, i, hone, -⟩ ⟨b, hb, hba, hgone⟩
    have hi : i ∈ c.instancesOf k a.entity := by rw [hone]; exact List.mem_cons_self
    obtain ⟨hon, hmade⟩ := List.mem_filter.1 hi
    exact hgone i hon ((h.made_iff hk hb (hba ▸ hon)).1 (of_decide_eq_true hmade))
  · intro hnot
    have hthere : ∃ i ∈ c.hosted.instancesOn a.entity, i.id = a.ref.id := by
      by_contra hgone
      exact hnot ⟨a, ha, rfl, fun i hi hid => hgone ⟨i, hi, hid⟩⟩
    obtain ⟨i, hi, hid⟩ := hthere
    have htag : (i.id, i.type) ∈ c.hosted.stage.world.tagsOn a.entity := List.mem_map_of_mem hi
    have halive : c.hosted.alive a.entity = true := by
      by_contra hdead
      rw [World.tagsOn_of_not_contains (eq_false_of_ne_true hdead)] at htag
      cases htag
    have hmade := (h.made_iff hk ha hi).2 hid
    obtain ⟨-, htype⟩ := (h.tracks k s hk).noted a.entity _ htag (.inl hmade)
    refine ⟨halive, i, ?_, Option.some.inj (htype.symm.trans hc)⟩
    have hnodup : ((c.hosted.instancesOn a.entity).map Instance.id).Nodup := by
      have hnd := h.orderly.nodup a.entity
      rwa [World.tagsOn, List.map_map] at hnd
    rw [← filter_eq_singleton hnodup hi]
    refine List.filter_congr fun j hj => decide_eq_decide.2 ?_
    rw [hid]
    exact h.made_iff hk ha hj

end Tracked

/-! ## Section 4 - the main theorem -/

/-- Attaching an entity succeeds if it is taken for attached, or if the host makes an instance, which is then
    there and noted down; else nothing comes of it. -/
theorem step_attach_cases {c : SharedHost} (h : c.Tracked) {k : Nat} {s : Script} {type : BehaviourType}
    (hk : c.hosted.scripts[k]? = some s) (hc : s.compiled = some type) (e : Entity) :
    (e ∈ s.attached ∧ (Script.attach c.hosted.workspace s e).2.2 = .ok () ∧
      c.step (.act (.call k (.attach e))) = c) ∨
    (e ∉ s.attached ∧ (Script.attach c.hosted.workspace s e).2.2 = .ok () ∧
      ∃ s', (c.step (.act (.call k (.attach e)))).hosted.scripts[k]? = some s' ∧ s'.compiled = some type ∧
        e ∈ s'.attached ∧ ¬ (c.step (.act (.call k (.attach e)))).Stranded s' e) ∨
    (e ∉ s.attached ∧ ∃ error, (Script.attach c.hosted.workspace s e).2.2 = .error error ∧
      (c.hosted.stage.addBehaviour c.hosted.workspace.context.modules e type).result = .error error ∧
      (c.step (.act (.call k (.attach e)))).hosted.scripts = c.hosted.scripts ∧
      (c.step (.act (.call k (.attach e)))).hosted.stage.world = c.hosted.stage.world ∧
      (c.step (.act (.call k (.attach e)))).next = c.next) := by
  have hlt : k < c.hosted.scripts.length := (List.getElem?_eq_some_iff.1 hk).1
  have hsame : c.hosted.scripts.set k s = c.hosted.scripts := by
    rw [← (List.getElem?_eq_some_iff.1 hk).2, List.set_getElem_self]
  have hstep : (c.step (.act (.call k (.attach e)))).hosted =
      ⟨(Script.attach c.hosted.workspace s e).1, c.hosted.scripts.set k (Script.attach c.hosted.workspace s e).2.1⟩ :=
    HostedScripts.step_call_of_some hk
  rcases Script.attach_cases c.hosted.workspace s e with ⟨hatt, heq⟩ | ⟨-, hnone, -⟩ |
    ⟨hatt, type', ref, hc', hr, heq⟩ | ⟨hatt, type', error, line, hc', hr, heq⟩
  · refine .inl ⟨hatt, by rw [heq], step_of_idle ?_⟩
    exact hstep.trans (by rw [heq, hsame])
  · rw [hc] at hnone
    cases hnone
  · obtain rfl : type = type' := Option.some.inj (hc.symm.trans hc')
    refine .inr (.inl ⟨hatt, by rw [heq], (s.link e ref).push (.attached s.identity e), ?_, hc, by simp, ?_⟩)
    · rw [hstep, heq]
      exact List.getElem?_set_self hlt
    · rintro ⟨a, ha, hae, hgone⟩
      -- the only attachment to the entity is the new one
      have hnew : a = ⟨e, ref⟩ := by
        rcases List.mem_append.1 ha with hold | hlast
        · exact absurd (hae ▸ List.mem_map_of_mem hold) hatt
        · exact List.mem_singleton.1 hlast
      obtain ⟨i, hi, hid⟩ := (h.tracks k s hk).mem_of_granted hr
      refine hgone i ?_ (by rw [hnew]; exact hid)
      show i ∈ (c.step (.act (.call k (.attach e)))).hosted.stage.world.instancesOn e
      rw [hstep, heq]
      exact hi
  · obtain rfl : type = type' := Option.some.inj (hc.symm.trans hc')
    obtain ⟨-, hworld, hnext⟩ := (h.tracks k s hk).refused hr
    refine .inr (.inr ⟨hatt, error, by rw [heq], hr, ?_, ?_, ?_⟩)
    · rw [hstep, heq]
      exact hsame
    · rw [hstep, heq]
      exact hworld
    · show (c.step (.act (.call k (.attach e)))).hosted.stage.nextInstance = _
      rw [hstep, heq]
      exact hnext

/-- In every state that can come about, with whatever strangers have done: if an attachment of an entity
    succeeds while the script has a type, the entity is then alive and carries exactly one instance of
    the script, of this type, exactly if it is not stranded; an entity that is stranded is one that the
    script takes for attached.  If the attachment fails, the error is that of the host, and no script, no
    instance and no number has changed. -/
theorem attach_carries_iff (w : Workspace Stage) (incidents : List Incident) {k : Nat} {s : Script}
    {type : BehaviourType} (hk : ((fresh w).run incidents).hosted.scripts[k]? = some s)
    (hc : s.compiled = some type) (e : Entity) :
    let c := (fresh w).run incidents
    let c' := c.step (.act (.call k (.attach e)))
    let result := (Script.attach c.hosted.workspace s e).2.2
    (result = .ok () → (c'.Carries k type e ↔ ¬ c.Stranded s e) ∧
      ∃ s', c'.hosted.scripts[k]? = some s' ∧ s'.compiled = some type ∧ e ∈ s'.attached) ∧
    ∀ error, result = .error error →
      (c.hosted.stage.addBehaviour c.hosted.workspace.context.modules e type).result = .error error ∧
        c'.hosted.scripts = c.hosted.scripts ∧ c'.hosted.stage.world = c.hosted.stage.world ∧ c'.next = c.next := by
  intro c c' result
  have h : c.Tracked := (tracked_fresh w).run incidents
  have h' : c'.Tracked := h.step _
  rcases step_attach_cases h hk hc e with ⟨hatt, hresult, hidle⟩ |
    ⟨hnew, hresult, s', hs', hc', hatt', hnot⟩ | ⟨hnew, error, hresult, hhost, hscripts, hworld, hnext⟩
  · have hsame : c' = c := hidle
    refine ⟨fun _ => ⟨?_, s, by rw [hsame]; exact hk, hc, hatt⟩, fun error herror => ?_⟩
    · rw [hsame]
      exact h.carries_iff hk hc hatt
    · cases hresult.symm.trans herror
  · refine ⟨fun _ => ⟨?_, s', hs', hc', hatt'⟩, fun error herror => ?_⟩
    · -- an entity that is new to the script is none of which it has noted anything down
      have hfree : ¬ c.Stranded s e := fun ⟨a, ha, hae, _⟩ => hnew (hae ▸ List.mem_map_of_mem ha)
      exact iff_of_true ((h'.carries_iff hs' hc' hatt').2 hnot) hfree
    · cases hresult.symm.trans herror
  · refine ⟨fun hok => ?_, fun error' herror => ?_⟩
    · cases hresult.symm.trans hok
    · obtain rfl : error = error' := by
        cases hresult.symm.trans herror
        rfl
      exact ⟨hhost, hscripts, hworld, hnext⟩

/-! ### A stranded entity -/

section stranded
open Script (spinWorkspace spinLoaded spinScript load_spin)

/-- A script is loaded, and an entity comes. -/
def spinOpening : List Incident :=
  [.act (.load "spin" ⟨"/spin"⟩ { hotReload := false }), .act (.spawn "top")]

/-- The state after that. -/
def spinShared : SharedHost := { hosted := HostedScripts.step ⟨spinLoaded.1, [spinScript]⟩ (.spawn "top") }

theorem run_spinOpening (rest : List Incident) :
    (fresh spinWorkspace).run (spinOpening ++ rest) = spinShared.run rest := by
  have hload : (HostedScripts.fresh spinWorkspace).step (.load "spin" ⟨"/spin"⟩ { hotReload := false }) =
      ⟨spinLoaded.1, [spinScript]⟩ :=
    HostedScripts.step_load_of_ok load_spin
  have hopening : (fresh spinWorkspace).run spinOpening = spinShared := by
    refine congrArg₂ SharedHost.mk (congrArg (HostedScripts.step · (.spawn "top")) hload) (funext fun id => ?_)
    -- neither incident is a call, so nobody has made anything
    show (if _ then none else if _ then none else none) = none
    rw [ite_self, ite_self]
  rw [← hopening]
  exact List.foldl_append

/-- The entity is attached, and then its instance is removed by others. -/
def strandedShared : SharedHost :=
  (fresh spinWorkspace).run (spinOpening ++ [.act (.call 0 (.attach ⟨0, 1⟩)), .evict ⟨⟨0, 1⟩, 1⟩])

/-- The entity is attached, and then it is removed itself. -/
def bereftShared : SharedHost :=
  (fresh spinWorkspace).run (spinOpening ++ [.act (.call 0 (.attach ⟨0, 1⟩)), .act (.despawn ⟨0, 1⟩)])

/-- Attaching the entity again succeeds in both states, and gives it nothing: in the one it is alive without
    any instance, and in the other it is not even alive. -/
theorem attach_leaves_stranded :
    (∃ s, strandedShared.hosted.scripts[0]? = some s ∧ s.compiled.isSome = true ∧
      (Script.attach strandedShared.hosted.workspace s ⟨0, 1⟩).2.2 = .ok () ∧
      (strandedShared.step (.act (.call 0 (.attach ⟨0, 1⟩)))).hosted.alive ⟨0, 1⟩ = true ∧
      (strandedShared.step (.act (.call 0 (.attach ⟨0, 1⟩)))).instancesOf 0 ⟨0, 1⟩ = []) ∧
    (∃ s, bereftShared.hosted.scripts[0]? = some s ∧ s.compiled.isSome = true ∧
      (Script.attach bereftShared.hosted.workspace s ⟨0, 1⟩).2.2 = .ok () ∧
      (bereftShared.step (.act (.call 0 (.attach ⟨0, 1⟩)))).hosted.alive ⟨0, 1⟩ = false) := by
  unfold strandedShared bereftShared
  rw [run_spinOpening, run_spinOpening]
  refine ⟨⟨_, eq_some_of_isSome (by decide +kernel), by decide +kernel,
    eq_ok_of_isOk (by decide +kernel), by decide +kernel, ?_⟩, _,
    eq_some_of_isSome (by decide +kernel), by decide +kernel, eq_ok_of_isOk (by decide +kernel),
    by decide +kernel⟩
  rw [← List.isEmpty_iff]
  decide +kernel

/-- An entity that is not stranded gets its instance. -/
theorem attach_carries_top : ∃ s type, spinShared.hosted.scripts[0]? = some s ∧ s.compiled = some type ∧
    (((fresh spinWorkspace).run spinOpening).step (.act (.call 0 (.attach ⟨0, 1⟩)))).Carries 0 type ⟨0, 1⟩ := by
  have hopening : (fresh spinWorkspace).run spinOpening = spinShared := run_spinOpening []
  have hscript : spinShared.hosted.scripts[0]? = some spinScript := rfl
  obtain ⟨type, hc⟩ : ∃ type, spinScript.compiled = some type :=
    Option.isSome_iff_exists.1 (by decide +kernel)
  have hfree : ¬ ((fresh spinWorkspace).run spinOpening).Stranded spinScript ⟨0, 1⟩ := by
    rintro ⟨a, ha, -⟩
    have hnone : spinScript.attachments = [] := by
      rw [← List.isEmpty_iff]
      decide +kernel
    rw [hnone] at ha
    cases ha
  have hk : ((fresh spinWorkspace).run spinOpening).hosted.scripts[0]? = some spinScript := by
    rw [hopening]
    exact hscript
  have hok : (Script.attach ((fresh spinWorkspace).run spinOpening).hosted.workspace spinScript ⟨0, 1⟩).2.2 =
      .ok () := by
    rw [hopening]
    exact eq_ok_of_isOk (by decide +kernel)
  exact ⟨spinScript, type, hscript, hc,
    ((attach_carries_iff spinWorkspace spinOpening hk hc ⟨0, 1⟩).1 hok).1.2 hfree⟩

end stranded

end SharedHost

end HotReload
