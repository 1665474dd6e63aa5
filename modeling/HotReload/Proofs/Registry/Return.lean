import HotReload.Proofs.Registry.GroupSession

/-! # Scripts that come back

    A script that nobody uses is out of service, and its source is not watched.  When
    somebody takes it into use again it comes back as it left: with the type that it
    had, with the path that it had, and with its signal as it was.  Nobody asks whether
    the source has changed meanwhile.

    So the next poll brings it up to date exactly if a change was owed an answer when it
    left, or a reload was requested while it was away, or there is nothing to do. -/

namespace HotReload

variable {η : Type}

/-! ## Section 1 - service -/

namespace Registry

/-- The script of a key is there, and in service. -/
def Serves (r : Registry) (k : Path) : Prop := ∃ s, r.script? k = some s ∧ s.discarded = false

/-- The script of a key is there, and out of service. -/
def Rests (r : Registry) (k : Path) : Prop := ∃ s, r.script? k = some s ∧ s.discarded = true

section service
variable {r r' : Registry} {k : Path}

theorem serves_iff : r.Serves k ↔ ∃ users, r.standing? k = some (users, false) := by
  unfold Serves script? standing?
  cases r.find? k <;> simp [RegistryEntry.standing]

theorem rests_iff : r.Rests k ↔ ∃ users, r.standing? k = some (users, true) := by
  unfold Rests script? standing?
  cases r.find? k <;> simp [RegistryEntry.standing]

theorem Serves.not_rests (h : r.Serves k) : ¬ r.Rests k := by
  obtain ⟨s, hs, hd⟩ := h
  rintro ⟨s', hs', hd'⟩
  rw [hs] at hs'
  cases hs'
  rw [hd] at hd'
  cases hd'

theorem rests_congr (h : r'.standing? k = r.standing? k) : r'.Rests k ↔ r.Rests k := by
  rw [rests_iff, rests_iff, h]

theorem serves_congr (h : r'.standing? k = r.standing? k) : r'.Serves k ↔ r.Serves k := by
  rw [serves_iff, serves_iff, h]

/-- A script that comes into service when one is taken into use is that one. -/
theorem serves_of_resolve {w w' : Workspace η} {identity : String} {key : Path}
    (hresolve : r.resolve w identity = (w', r', .ok key)) (h : r'.Serves k) : r.Serves k ∨ k.Same key := by
  obtain ⟨users, hk⟩ := serves_iff.1 h
  rw [standing?_resolve hresolve] at hk
  split at hk
  · next hsame => exact .inr hsame
  · exact .inl (serves_iff.2 ⟨users, hk⟩)

/-- No script comes into service when one is given up. -/
theorem serves_of_release {f : Files} {identity : String}
    (h : (r.release f identity).1.Serves k) : r.Serves k := by
  obtain ⟨users, hk⟩ := serves_iff.1 h
  rw [standing?_release] at hk
  split at hk
  · obtain ⟨⟨u, d⟩, hbefore, heq⟩ := Option.map_eq_some_iff.1 hk
    have hd : (if u - 1 > 0 then d else true) = false := congrArg Prod.snd heq
    split at hd
    · exact serves_iff.2 ⟨u, by rw [hbefore, hd]⟩
    · cases hd
  · exact serves_iff.2 ⟨users, hk⟩

/-- A script with one user is out of service when that one gives it up. -/
theorem rests_release {f : Files} {identity : String} {discarded : Bool}
    (honly : r.standing? k = some (1, discarded)) (hk : k.Same (r.keyOf f identity)) :
    (r.release f identity).1.Rests k :=
  rests_iff.2 ⟨0, by rw [standing?_release, if_pos hk, honly]; rfl⟩

/-- A script that is there can be taken into use, and is in service then. -/
theorem serves_resolve {w : Workspace η} {identity : String} (h : r.Rests k)
    (hk : k.Same (r.keyOf w.files identity)) :
    ∃ w' r' key, r.resolve w identity = (w', r', .ok key) ∧ r'.Serves k := by
  obtain ⟨s, hs, -⟩ := h
  obtain ⟨e, he, -⟩ := script?_eq_some.1 hs
  have hsame := (key_of_find? he).symm
  rw [find?_congr r hk] at he
  obtain ⟨w', r', hresolve⟩ := resolve_known he
  refine ⟨w', r', e.key, hresolve, serves_iff.2 ⟨r.usersAt k + 1, ?_⟩⟩
  rw [standing?_resolve hresolve, if_pos hsame]

/-- What a script carries from one registry to another. -/
theorem Carries.script? (h : r.Carries r') {s : Script} (hs : r.script? k = some s) :
    ∃ s', r'.script? k = some s' ∧ s.Carries s' := by
  obtain ⟨e, he, rfl⟩ := script?_eq_some.1 hs
  obtain ⟨e', he', hcarries⟩ := h k e he
  exact ⟨e'.script, script?_eq_some.2 ⟨e', he', rfl⟩, hcarries⟩

end service

end Registry

/-- Whether an operation concerns no more than the surroundings, which are the files and what else the workspace
    holds. -/
def GroupOp.isOutside : GroupOp η → Bool
  | .edit .. | .others _ => true
  | _ => false

namespace GroupSession

/-- Whether an operation is a request for the script of a key. -/
def asksFor (c : GroupSession η) (k : Path) (d : GroupOp η) : Bool :=
  match c.requested d with
  | some key => k.Same key
  | none => false

variable [Host η]

/-- Whether one of some operations is such a request, each in the session that the ones before it make. -/
def asks (c : GroupSession η) (k : Path) : List (GroupOp η) → Bool
  | [] => false
  | d :: rest => c.asksFor k d || (c.step d).asks k rest

end GroupSession

/-! ## Section 2 - scripts out of service -/

namespace Script

/-- What a script brings back from its absence, in which a reload may have been asked for. -/
structure Returned (s s' : Script) (asked : Bool) : Prop where
  code : s'.code = s.code
  path : s'.path = s.path
  quiet : s'.Quiet
  signal : s'.signal.raised = true ↔ s.signal.raised = true ∨ asked = true

theorem Carries.returned {s s' : Script} (h : s.Carries s') (hq : s.Quiet) : s.Returned s' false where
  code := h.code
  path := h.path
  quiet := h.quiet hq
  signal := by simp [h.signal]

theorem Returned.trans {s s' s'' : Script} {asked asked' : Bool} (h : s.Returned s' asked)
    (h' : s'.Returned s'' asked') : s.Returned s'' (asked || asked') where
  code := h'.code.trans h.code
  path := h'.path.trans h.path
  quiet := h'.quiet
  signal := by rw [h'.signal, h.signal, Bool.or_eq_true, or_assoc]

/-- Out of service a script notices nothing. -/
theorem notice_of_rest {s : Script} (hd : s.discarded = true) (hq : s.Quiet) (f : Files)
    (touches : List Touch) : s.notice f touches = s := by
  rcases notice_cases s f touches with heq | ⟨hwatch, -⟩
  · exact heq
  · rw [hq hd] at hwatch
    cases hwatch

/-- A request is what a script returns with. -/
theorem returned_requestReload {s : Script} (hq : s.Quiet) : s.Returned s.requestReload true :=
  ⟨rfl, rfl, hq, by simp [requestReload]⟩

theorem carries_drainEvents (s : Script) : s.Carries s.drainEvents.1 := ⟨rfl, rfl, rfl, id⟩

end Script

namespace Registry

/-- The script of an entry that is found after a change of all entries. -/
theorem script?_of_find? {r r' : Registry} {k : Path} {f : RegistryEntry → RegistryEntry}
    (hfind : r'.find? k = (r.find? k).map f) {s : Script} (hs : r.script? k = some s) :
    ∃ e, e.script = s ∧ r'.script? k = some (f e).script := by
  obtain ⟨e, he, rfl⟩ := script?_eq_some.1 hs
  exact ⟨e, rfl, script?_eq_some.2 ⟨f e, by rw [hfind, he]; rfl, rfl⟩⟩

end Registry

namespace GroupSession
variable [Host η] {c : GroupSession η} {k : Path}

/-- No operation changes anything about a script out of service, but that a request raises its signal and
    that it may come back. -/
theorem returned_step {s : Script} (hs : c.registry.script? k = some s) (hd : s.discarded = true)
    (hq : s.Quiet) (d : GroupOp η) :
    ∃ s', (c.step d).registry.script? k = some s' ∧ s.Returned s' (c.asksFor k d) := by
  cases huse : d.isUse with
  | true =>
    obtain ⟨s', hs', hcarries⟩ := (c.worked_step huse).carries.script? hs
    have hasks : c.asksFor k d = false := by
      cases d <;> first | rfl | cases huse
    exact ⟨s', hs', hasks ▸ hcarries.returned hq⟩
  | false =>
    have hsame : s.Returned s false := (Script.Carries.refl s).returned hq
    cases d with
    | edit files touches =>
      obtain ⟨e, rfl, hs'⟩ := Registry.script?_of_find? (c.registry.find?_notice files touches k) hs
      exact ⟨_, hs', (Script.notice_of_rest hd hq files touches).symm ▸ hsame⟩
    | others w => exact ⟨s, hs, hsame⟩
    | request identity =>
      obtain ⟨e, rfl, hs'⟩ := Registry.script?_of_find?
        (c.registry.find?_requestReload c.workspace.files identity k) hs
      by_cases hk : k.Same (c.registry.keyOf c.workspace.files identity)
      · have hasks : c.asksFor k (.request identity) = true := decide_eq_true hk
        rw [if_pos hk] at hs'
        exact ⟨_, hs', hasks ▸ Script.returned_requestReload hq⟩
      · have hasks : c.asksFor k (.request identity) = false := decide_eq_false hk
        rw [if_neg hk] at hs'
        exact ⟨_, hs', hasks ▸ hsame⟩
    | poll keys => exact ⟨s, Registry.script?_updateEach_of_idle hs (.inl hd) c.workspace keys, hsame⟩
    | drain =>
      obtain ⟨e, rfl, hs'⟩ := Registry.script?_of_find? (c.registry.find?_drainEvents k) hs
      exact ⟨_, hs', (Script.carries_drainEvents e.script).returned hq⟩
    | resolve identity => cases huse
    | release identity => cases huse
    | form e identities => cases huse
    | teardown k policy => cases huse

/-- So it is over a whole run in which the script stays out of service, but for the end. -/
theorem returned_run {s : Script} (hs : c.registry.script? k = some s) (hq : s.Quiet)
    {ops : List (GroupOp η)}
    (hrests : ∀ before d after, ops = before ++ d :: after → (c.run before).registry.Rests k) :
    ∃ s', (c.run ops).registry.script? k = some s' ∧ s.Returned s' (c.asks k ops) := by
  induction ops generalizing c s with
  | nil => exact ⟨s, hs, (Script.Carries.refl s).returned hq⟩
  | cons d rest ih =>
    obtain ⟨s₀, hs₀, hd⟩ := hrests [] d rest rfl
    obtain rfl : s = s₀ := Option.some.inj (hs.symm.trans hs₀)
    obtain ⟨s', hs', hfirst⟩ := returned_step hs hd hq d
    obtain ⟨s'', hs'', hlater⟩ := ih hs' hfirst.quiet fun before d' after heq =>
      hrests (d :: before) d' after (by rw [heq]; rfl)
    exact ⟨s'', hs'', hfirst.trans hlater⟩

/-- The surroundings ask for nothing, and they take no script out of service. -/
theorem outside_run {ops : List (GroupOp η)} (h : ∀ d ∈ ops, d.isOutside = true) :
    c.asks k ops = false ∧ ((c.run ops).registry.Rests k ↔ c.registry.Rests k) := by
  induction ops generalizing c with
  | nil => exact ⟨rfl, Iff.rfl⟩
  | cons d rest ih =>
    obtain ⟨hasks, hrests⟩ := ih (c := c.step d) fun d' hd' => h d' (List.mem_cons_of_mem d hd')
    have hd := h d List.mem_cons_self
    have huse : d.isUse = false := by
      cases d <;> first | rfl | cases hd
    have hnow : c.asksFor k d = false := by
      cases d <;> first | rfl | cases hd
    obtain ⟨hstanding, -, -⟩ := c.step_of_aside huse
    refine ⟨by rw [asks, hnow, hasks, Bool.false_or], ?_⟩
    rw [run_cons, hrests, Registry.rests_congr (hstanding k)]

/-! ## Section 3 - going and coming back -/

/-- A script goes out of service by one operation, stays there for others, and comes back by one more. -/
structure Absence (c : GroupSession η) (k : Path) (out : GroupOp η) (gap : List (GroupOp η)) (back : GroupOp η) : Prop where
  present : c.registry.Serves k
  away : ∀ before after, gap = before ++ after → ((c.step out).run before).registry.Rests k
  returns : (((c.step out).run gap).step back).registry.Serves k

/-- An operation that takes a script out of service, or brings it back, is one that takes scripts into use or gives
    them up. -/
theorem isUse_of_rests {d : GroupOp η} (h : c.registry.Serves k) (h' : (c.step d).registry.Rests k) :
    d.isUse = true := by
  cases huse : d.isUse with
  | true => rfl
  | false =>
    obtain ⟨hstanding, -, -⟩ := c.step_of_aside huse
    exact absurd ((Registry.rests_congr (hstanding k)).1 h') h.not_rests

theorem isUse_of_serves {d : GroupOp η} (h : c.registry.Rests k) (h' : (c.step d).registry.Serves k) :
    d.isUse = true := by
  cases huse : d.isUse with
  | true => rfl
  | false =>
    obtain ⟨hstanding, -, -⟩ := c.step_of_aside huse
    exact absurd h ((Registry.serves_congr (hstanding k)).1 h').not_rests

namespace Absence
variable {out back : GroupOp η} {gap : List (GroupOp η)}

/-- A script comes back as it left, except for requests. -/
theorem returned (h : c.Absence k out gap back) {s : Script} (hs : c.registry.script? k = some s) :
    ∃ s', (((c.step out).run gap).step back).registry.script? k = some s' ∧ s'.discarded = false ∧
      s.Returned s' ((c.step out).asks k gap) := by
  obtain ⟨s₀, hs₀, hd⟩ := h.present
  obtain rfl : s = s₀ := Option.some.inj (hs.symm.trans hs₀)
  have hquiet : s.Quiet := by
    intro hrests
    rw [hd] at hrests
    cases hrests
  have hleft := isUse_of_rests h.present (h.away [] gap rfl)
  have hcame := isUse_of_serves (h.away gap [] (by simp)) h.returns
  obtain ⟨s₁, hs₁, hout⟩ := (c.worked_step hleft).carries.script? hs
  obtain ⟨s₂, hs₂, hgap⟩ := returned_run hs₁ (hout.quiet hquiet) fun before d after heq =>
    h.away before (d :: after) heq
  obtain ⟨s₃, hs₃, hback⟩ := (((c.step out).run gap).worked_step hcame).carries.script? hs₂
  obtain ⟨s₄, hs₄, hserves⟩ := h.returns
  obtain rfl : s₃ = s₄ := Option.some.inj (hs₃.symm.trans hs₄)
  refine ⟨s₃, hs₃, hserves, ?_⟩
  simpa using ((hout.returned hquiet).trans hgap).trans (hback.returned hgap.quiet)

end Absence

/-- A script that is out of service stays so as long as only the surroundings change. -/
theorem Absence.of_outside {out back : GroupOp η} {gap : List (GroupOp η)} (hpresent : c.registry.Serves k)
    (hout : (c.step out).registry.Rests k) (hgap : ∀ d ∈ gap, d.isOutside = true)
    (hback : (((c.step out).run gap).step back).registry.Serves k) : c.Absence k out gap back where
  present := hpresent
  away before after heq := by
    refine (outside_run fun d hd => hgap d ?_).2.2 hout
    rw [heq]
    exact List.mem_append_left after hd
  returns := hback

/-- The only user of a script gives it up, and somebody takes it into use again. -/
theorem Absence.of_release {identity identity' : String} {gap : List (GroupOp η)}
    (honly : c.registry.standing? k = some (1, false))
    (hout : k.Same (c.registry.keyOf c.workspace.files identity))
    (hgap : ∀ d ∈ gap, d.isOutside = true)
    (hback : k.Same (c.registry.keyOf ((c.step (.release identity)).run gap).workspace.files identity')) :
    c.Absence k (.release identity) gap (.resolve identity') := by
  have hleft : (c.step (.release identity)).registry.Rests k := Registry.rests_release honly hout
  refine .of_outside (Registry.serves_iff.2 ⟨1, honly⟩) hleft hgap ?_
  have hsetting : ((c.step (.release identity)).run gap).registry.setting = c.registry.setting :=
    (setting_run _ gap).trans (c.setting_step _)
  rw [← Registry.keyOf_congr hsetting rfl] at hback
  obtain ⟨w', r', key, hresolve, hserves⟩ := Registry.serves_resolve ((outside_run hgap).2.2 hleft) hback
  have hregistry : (((c.step (.release identity)).run gap).step (.resolve identity')).registry = r' :=
    congrArg (fun resolved => resolved.2.1) hresolve
  rwa [hregistry]

/-- The workspace in which a poll comes to a script. -/
def workspaceAt (c : GroupSession η) (keys : List Path) (k : Path) : Workspace η :=
  c.registry.workspaceAt c.workspace keys k

/-- It has the files that the poll began with. -/
theorem files_workspaceAt (c : GroupSession η) (keys : List Path) (k : Path) :
    (c.workspaceAt keys k).files = c.workspace.files :=
  Registry.files_updateEach c.workspace c.registry _

namespace Absence
variable {out back : GroupOp η} {gap : List (GroupOp η)}

/-- The first poll after the return. -/
theorem polled (h : c.Absence k out gap back) {keys : List Path} (hk : ∃ key ∈ keys, k.Same key) :
    ∃ s s', c.registry.script? k = some s ∧
      ((((c.step out).run gap).step back).step (.poll keys)).registry.script? k = some s' ∧
      (s'.UpToDate ((((c.step out).run gap).step back).workspaceAt keys k) ↔
        s.signal.raised = true ∨ (c.step out).asks k gap = true ∨
          s.UpToDate ((((c.step out).run gap).step back).workspaceAt keys k)) := by
  obtain ⟨s, hs, -⟩ := h.present
  obtain ⟨s', hs', hserves, hreturned⟩ := h.returned hs
  generalize ((c.step out).run gap).step back = c' at hs'
  refine ⟨s, (Script.update (c'.workspaceAt keys k) s').2.1, hs,
    Registry.script?_updateEach hs' c'.workspace keys hk, ?_⟩
  have hsame := Script.upToDate_congr (w := c'.workspaceAt keys k) hreturned.code hreturned.path
  rw [← or_assoc, ← hreturned.signal, ← hsame]
  cases hr : s'.signal.raised with
  | true =>
    have hupdated := Script.upToDate_update (w := c'.workspaceAt keys k) hserves hr
    simpa using hupdated
  | false =>
    have hidle := Script.update_of_idle (.inr hr) (c'.workspaceAt keys k)
    have hstays : (Script.update (c'.workspaceAt keys k) s').2.1 = s' := by rw [hidle]
    rw [hstays]
    simp

end Absence

end GroupSession

end HotReload
