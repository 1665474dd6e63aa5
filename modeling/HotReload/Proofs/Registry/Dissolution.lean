import HotReload.Proofs.Registry.Inborn
import HotReload.Proofs.Registry.Spellings

/-! # Groups that come and go

    A group that is taken down as soon as it has been formed gives up every script by the
    identity that the script was listed by, and since the files have not changed, that
    identity leads back to the script.  So taking the group down goes once to each of its
    scripts, and undoes what forming it has done to the counters.  What it cannot undo is
    that scripts have been loaded: these stay behind, out of service and without users. -/

namespace HotReload

variable {η : Type}

/-! ## Section 1 - scripts that are as they should be -/

namespace Script

theorem inborn_settled : Inborn Settled where
  load := by
    intro η w identity p options s h
    obtain ⟨⟨type, hc⟩, ha, hs⟩ := load_fields h
    exact .of_some hc hs (by simp [attached, ha])
  resume := by
    intro η w s h
    obtain ⟨-, -, hc, ha, hs⟩ := resume_fields w s
    exact h.congr hc ha hs
  discard := by
    intro s h
    obtain ⟨hc, ha, hs⟩ := discard_fields s
    exact h.congr hc ha hs

end Script

/-- All scripts of a registry are settled. -/
def Registry.Settled (r : Registry) : Prop := ∀ k s, r.script? k = some s → s.Settled

theorem Registry.settled_iff {r : Registry} : r.Settled ↔ r.All Script.Settled := Iff.rfl

/-- Whatever happens in a session, its scripts are settled. -/
theorem RegistrySession.settled_run [Host η] {d : RegistrySession η} (h : d.registry.Settled) (ops : List (RegistryOp η)) :
    (d.run ops).registry.Settled := by
  rw [Registry.settled_iff] at h ⊢
  induction ops generalizing d with
  | nil => exact h
  | cons e rest ih =>
    refine ih ?_
    cases e with
    | edit files touches => exact h.notice (fun s hs => hs.congr rfl rfl rfl) files touches
    | others w => exact h
    | resolve identity => exact h.resolve Script.inborn_settled d.workspace identity
    | release identity => exact h.release Script.inborn_settled d.workspace.files identity
    | update key =>
      have hvisit : (d.registry.visit d.workspace key Script.update).2.1.All Script.Settled :=
        h.visit d.workspace key fun s hs => hs.call d.workspace .update
      exact hvisit
    | poll => exact h.updateEach d.workspace _ fun w s hs => hs.call w .update
    | drain => exact h.of_find? (Registry.find?_drainEvents d.registry) fun k e he => he.congr rfl rfl rfl
    | call key c hc =>
      rw [registry_call]
      exact h.visit d.workspace key fun s hs => hs.call d.workspace c

/-! ## Section 2 - giving up each script once -/

namespace RegistryEntry
variable [Host η]

/-- An entry that a group with an entity has given up, and whose script has dropped the entity before. -/
def left (w : Workspace η) (e : Entity) (entry : RegistryEntry) : RegistryEntry :=
  released { entry with script := (entry.script.detach w e).2.1 }

theorem standing_left (w : Workspace η) (e : Entity) (entry : RegistryEntry) : (entry.left w e).standing =
    (entry.users - 1, if entry.users - 1 > 0 then entry.script.discarded else true) := by
  rw [left, standing_released, Script.discarded_of_footing (Script.detach_frame w entry.script e).footing]

/-- The script of such an entry does not know the entity any more. -/
theorem not_mem_roster_left {entry : RegistryEntry} (h : entry.script.Settled) (w : Workspace η) (e : Entity) :
    e ∉ (entry.left w e).script.roster := by
  have hdetached : e ∉ (entry.script.detach w e).2.1.roster := by
    rw [(h.detach w e).1]
    simp
  unfold left released
  split
  · exact hdetached
  · -- a script that goes out of service keeps its entities, without this one
    obtain ⟨-, ha, hs⟩ := Script.discard_fields (entry.script.detach w e).2.1
    unfold Script.roster Script.attached at hdetached ⊢
    dsimp only
    rwa [ha, hs]

end RegistryEntry

namespace ScriptGroup
variable [Host η]

/-- One script of a group is given up, and nothing else is touched. -/
theorem find?_leave_release {w : Workspace η} {r : Registry} {identity : String} {key : Path}
    (hkey : (r.keyOf w.files identity).Same key) (e : Entity) (k : Path) :
    ((leave w r e key .detachEntity).2.release (leave w r e key .detachEntity).1.files identity).1.find? k =
      (r.find? k).map fun entry => if k.Same key then entry.left w e else entry := by
  have hworked := worked_leave w r e key .detachEntity
  rw [Registry.find?_release, Registry.keyOf_congr hworked.setting hworked.files, leave, Registry.find?_visit]
  simp only [same_iff_of_same hkey]
  cases r.find? k with
  | none => rfl
  | some entry => by_cases hsame : k.Same key <;> simp [hsame, RegistryEntry.left]

/-- Giving up scripts that are apart, by identities that lead to them, goes once to each of them and to no other. -/
theorem find?_releaseEach {w : Workspace η} {r : Registry} {scripts : List (String × Path)}
    (hapart : (scripts.map Prod.snd).Pairwise fun a b => ¬ a.Same b)
    (hleads : ∀ s ∈ scripts, (r.keyOf w.files s.1).Same s.2) (e : Entity) :
    (∀ k, (∀ s ∈ scripts, ¬ s.2.Same k) → (releaseEach w r e .detachEntity scripts).2.find? k = r.find? k) ∧
      ∀ s ∈ scripts, ∃ w' : Workspace η, (releaseEach w r e .detachEntity scripts).2.find? s.2 =
        (r.find? s.2).map fun entry => entry.left w' e := by
  induction scripts generalizing w r with
  | nil => simp [releaseEach]
  | cons script rest ih =>
    obtain ⟨identity, key⟩ := script
    obtain ⟨hother, hapart⟩ := List.pairwise_cons.1 hapart
    obtain ⟨hkey, hleads⟩ := List.forall_mem_cons.1 hleads
    have hworked := (worked_leave w r e key .detachEntity).release identity
    have hfirst := find?_leave_release hkey e
    have hrest := ih (w := (leave w r e key .detachEntity).1)
      (r := ((leave w r e key .detachEntity).2.release (leave w r e key .detachEntity).1.files identity).1)
      hapart (fun s hs => by
        rw [Registry.keyOf_congr hworked.setting hworked.files]
        exact hleads s hs)
    obtain ⟨hspared, hleft⟩ := hrest
    rw [releaseEach_cons]
    constructor
    · intro k hk
      obtain ⟨hk, hkrest⟩ := List.forall_mem_cons.1 hk
      have hnot : ¬ k.Same key := fun hsame => hk hsame.symm
      rw [hspared k hkrest, hfirst k]
      cases r.find? k <;> simp [hnot]
    · intro s hs
      rcases List.mem_cons.1 hs with rfl | hs
      · -- the scripts that follow are others
        refine ⟨w, ?_⟩
        rw [hspared key fun s hs hsame => hother s.2 (List.mem_map_of_mem hs) hsame.symm, hfirst key]
        simp [Path.Same.refl]
      · obtain ⟨w', hw'⟩ := hleft s hs
        have hnot : ¬ s.2.Same key := fun hsame => hother s.2 (List.mem_map_of_mem hs) hsame.symm
        refine ⟨w', ?_⟩
        rw [hw', hfirst s.2]
        cases r.find? s.2 <;> simp [hnot]

/-! ## Section 3 - the main theorem -/

/-- What forming a group comes to. -/
structure Formed (w : Workspace η) (r : Registry) (e : Entity) (identities : List String) (w' : Workspace η)
    (r' : Registry) (g : ScriptGroup) : Prop where
  entity : g.entity = e
  /-- Of the identities that load, the group has the first one of each script, in the order of the list. -/
  first : g.identities = (loading (trials w r { entity := e } identities)).eraseDupsBy
    fun a b => decide ((r.keyOf w.files a).Same (r.keyOf w.files b))
  /-- Each of them stands for the script that it leads to. -/
  leads : ∀ s ∈ g.scripts, (r.keyOf w.files s.1).Same s.2
  /-- The identities that fail to load are listed in order, with repetitions. -/
  unresolved : g.unresolved = failing (trials w r { entity := e } identities)
  /-- An identity loads exactly if its script is known, or it or one before leads to the script by a source that
      declares one type; unless a source looks like a marker, or the compiler cannot find its types again. -/
  told : w.context.bootstrap.1.compiler.Reflects →
    (∀ identity ∈ identities, ∀ source, w.readSource (r.keyOf w.files identity) = .ok source → Plain source) →
    ∀ (n : Nat) identity loads, (trials w r { entity := e } identities)[n]? = some (identity, loads) →
      (loads = true ↔ r.Within w (identities.take (n + 1)) (r.keyOf w.files identity))
  /-- Every script of the group has one user more, and no other has. -/
  users : ∀ k, r'.usersAt k = r.usersAt k + if g.holds k then 1 else 0
  /-- The entity is attached once to every script of the group, and this is all that the host is asked for. -/
  attempts : ∃ attempts : List (Attempt η), attempts.map Attempt.entry = g.scripts ∧
    (∀ a ∈ attempts, a.Done w r e r') ∧ Attempt.Leads e w.host w'.host attempts
  /-- Scripts that the group does not hold are as they were. -/
  others : ∀ k, g.holds k = false → r'.find? k = r.find? k

/-- What is left when a group with an entity has been formed and taken down again. -/
structure Dissolved (r : Registry) (e : Entity) (g : ScriptGroup) (r' : Registry) : Prop where
  /-- All counters are as they were. -/
  users : ∀ k, r'.usersAt k = r.usersAt k
  /-- No script of the group knows the entity. -/
  forgotten : ∀ k, g.holds k = true → ∃ s, r'.script? k = some s ∧ e ∉ s.roster
  /-- A script that the group was the first to load stays behind without users, out of service. -/
  left : ∀ k, g.holds k = true → r.knows k = false → r'.standing? k = some (0, true)
  others : ∀ k, g.holds k = false → r'.find? k = r.find? k

section atOnce
variable {w w' : Workspace η} {r r' : Registry} {g : ScriptGroup} {attempts : List (Attempt η)}

/-- The identities of a group that is taken down at once still lead to its scripts. -/
theorem leads_of_forming (h : Forming w r w' r' g attempts) : ∀ s ∈ g.scripts, (r'.keyOf w'.files s.1).Same s.2 := by
  intro s hs
  rw [Registry.keyOf_congr h.joining.setting h.files]
  exact h.joining.leads s hs

theorem findsBack_of_forming (h : Forming w r w' r' g attempts) : g.findsBack r' w'.files := by
  intro key hkey
  obtain ⟨s, hs, rfl⟩ := List.mem_map.1 hkey
  exact ⟨s.1, List.mem_map_of_mem hs, leads_of_forming h s hs⟩

/-- The scripts of a group are settled, since each has been attached to the entity once, and was settled before. -/
theorem settled_of_forming (h : Forming w r w' r' g attempts) (hr : r.Settled) {k : Path} (hk : g.holds k = true)
    {s : Script} (hs : r'.script? k = some s) : s.Settled := by
  obtain ⟨key, hkey, hsame⟩ := holds_iff.1 hk
  obtain ⟨script, hscript, rfl⟩ := List.mem_map.1 hkey
  rw [← h.listed] at hscript
  obtain ⟨a, ha, rfl⟩ := List.mem_map.1 hscript
  have hdone := h.done a ha
  have hsame' : a.key.Same k := hsame
  have hmade : r'.script? k = some (a.made g.entity).2.1 := by
    rw [Registry.script?, ← Registry.find?_congr r' hsame']
    exact hdone.script
  obtain rfl : s = (a.made g.entity).2.1 := Option.some.inj (hs.symm.trans hmade)
  exact (Registry.settled_iff.1 hr |>.taken Script.inborn_settled hdone.taken).attach a.workspace g.entity

/-- What becomes of the entry of a script that the group holds. -/
theorem find?_teardown_of_holds (h : Forming w r w' r' g attempts) {k : Path} (hk : g.holds k = true) :
    ∃ (w'' : Workspace η) (entry : RegistryEntry), r'.find? k = some entry ∧
      entry.standing = (r.usersAt k + 1, false) ∧
      (g.teardown w' r' .detachEntity).2.find? k = some (entry.left w'' g.entity) := by
  obtain ⟨entry, hentry, hstanding⟩ := Option.map_eq_some_iff.1 (h.serving k hk)
  obtain ⟨key, hkey, hsame⟩ := holds_iff.1 hk
  obtain ⟨s, hs, rfl⟩ := List.mem_map.1 hkey
  obtain ⟨-, hleft⟩ := find?_releaseEach h.joining.apart (leads_of_forming h) g.entity
  obtain ⟨w'', hfind⟩ := hleft s hs
  refine ⟨w'', entry, hentry, hstanding, ?_⟩
  rw [← Registry.find?_congr _ hsame, teardown, hfind, Registry.find?_congr r' hsame, hentry]
  rfl

theorem dissolved_of_forming (h : Forming w r w' r' g attempts) (hr : r.Settled) :
    Dissolved r g.entity g (g.teardown w' r' .detachEntity).2 where
  users := by
    intro k
    rw [usersAt_teardown, leading_of_findsBack h.joining.apart (findsBack_of_forming h), h.joining.counted,
      Nat.add_sub_cancel]
  forgotten := by
    intro k hk
    obtain ⟨w'', entry, hentry, -, hfind⟩ := find?_teardown_of_holds h hk
    have hsettled : entry.script.Settled :=
      settled_of_forming h hr hk (Registry.script?_eq_some.2 ⟨entry, hentry, rfl⟩)
    exact ⟨_, Registry.script?_eq_some.2 ⟨_, hfind, rfl⟩, RegistryEntry.not_mem_roster_left hsettled w'' g.entity⟩
  left := by
    intro k hk hnew
    obtain ⟨w'', entry, -, hstanding, hfind⟩ := find?_teardown_of_holds h hk
    rw [Registry.usersAt_of_unknown hnew] at hstanding
    obtain ⟨husers, -⟩ := Prod.mk.inj hstanding
    -- the group is the only user, so nobody is left
    rw [Registry.standing?, hfind, Option.map_some, RegistryEntry.standing_left, husers]
    rfl
  others := by
    intro k hk
    obtain ⟨hspared, -⟩ := find?_releaseEach h.joining.apart (leads_of_forming h) g.entity
    have hother : ∀ s ∈ g.scripts, ¬ s.2.Same k := by
      intro s hs hsame
      rw [holds_iff.2 ⟨s.2, List.mem_map_of_mem hs, hsame⟩] at hk
      cases hk
    exact (hspared k hother).trans (h.others k hk)

end atOnce

/-- A group has the first identity of each script among those that load, and lists those that fail to load; forming it
    takes each of its scripts into use once, attaches its entity once to each, and touches no other script.  Taking
    it down at once restores all counters, leaves the entity in none of its scripts, and leaves what it was the
    first to load out of service. -/
theorem formed_and_dissolved (w : Workspace η) {r : Registry} (hr : r.Settled) (e : Entity)
    (identities : List String) :
    Formed w r e identities (form w r e identities).1 (form w r e identities).2.1 (form w r e identities).2.2 ∧
      Dissolved r e (form w r e identities).2.2 (teardown (form w r e identities).1 (form w r e identities).2.1
        (form w r e identities).2.2 .detachEntity).2 := by
  have hstart := Forming.start w r e
  obtain ⟨attempts, hforming⟩ := hstart.addEach identities
  have hentity : (addEach w r { entity := e } identities).2.2.entity = e :=
    entity_addEach w r { entity := e } identities
  have hdone := hforming.done
  have hleads := hforming.leads
  have hdissolved := dissolved_of_forming hforming hr
  rw [hentity] at hdone hleads hdissolved
  refine ⟨⟨hentity, ?_, hforming.joining.leads, unresolved_addEach w r { entity := e } identities, ?_,
    hforming.joining.counted, ⟨attempts, hforming.listed, hdone, hleads⟩, hforming.others⟩, hdissolved⟩
  · have hsetting : r.setting = r.setting := rfl
    have hfirst := identities_addEach (g := { entity := e }) (w := w) rfl hsetting identities
    rw [form, hfirst]
    simp [ScriptGroup.identities, holds]
  · intro hreflects hplain n identity loads hn
    have hnone : ∀ k, r.knows k = true ↔ r.Within w [] k := by
      intro k
      simp [Registry.Within]
    exact hstart.trials_told hreflects hnone hplain hn

/-! ### A source by two spellings -/

open GroupSession (linkedWorkspace keyOf_linked readSource_linked)

theorem isName_gone : Path.IsName "gone" := by decide +kernel

theorem resolve_gone : linkedWorkspace.files.resolve ⟨"/gone"⟩ = .error .notFound :=
  Files.resolve_free (by decide +kernel) isName_gone (by decide +kernel) rfl

theorem keyOf_gone : Registry.rooted.keyOf linkedWorkspace.files "gone" = ⟨"/gone"⟩ := by
  have hpath : Registry.rooted.resolvePath "gone" = ⟨"/gone"⟩ := by decide +kernel
  rw [Registry.keyOf_rooted hpath, Files.normalize_of_failed (by decide +kernel) isName_gone resolve_gone
    (by decide +kernel) (by decide +kernel)]
  rfl

theorem readSource_gone : ∃ error, linkedWorkspace.readSource ⟨"/gone"⟩ = .error error := by
  rw [Workspace.readSource, Files.readText, Files.readBytes, resolve_gone]
  exact ⟨_, rfl⟩

/-- Whatever source one of the names leads to is a plain one. -/
theorem plain_linked {identity source : String} (hidentity : identity ∈ ["spin/", "gone", "link"])
    (hsource : linkedWorkspace.readSource (Registry.rooted.keyOf linkedWorkspace.files identity) = .ok source) :
    Plain source := by
  have hlink : Registry.rooted.keyOf linkedWorkspace.files "link" = ⟨"/spin"⟩ := keyOf_linked Script.spinSource
  simp only [List.mem_cons, List.not_mem_nil, or_false] at hidentity
  rcases hidentity with rfl | rfl | rfl
  · rw [Registry.keyOf_spin_slashed, readSource_linked] at hsource
    exact Except.ok.inj hsource ▸ Script.plain_spin
  · obtain ⟨error, herror⟩ := readSource_gone
    rw [keyOf_gone, herror] at hsource
    cases hsource
  · rw [hlink, readSource_linked] at hsource
    exact Except.ok.inj hsource ▸ Script.plain_spin

/-- A compiler for which nothing may be called reflects all that may be. -/
theorem reflects_resolve_linked :
    (Registry.rooted.resolve linkedWorkspace "link").1.context.bootstrap.1.compiler.Reflects := by
  have hnone : linkedWorkspace.context.callable = [] := List.length_eq_zero_iff.1 (by decide +kernel)
  have hcallable := Registry.context_resolve (P := fun c => c.callable = linkedWorkspace.context.callable)
    (fun c source hc => (c.callable_extract source).trans hc) rfl Registry.rooted "link"
  intro m hm
  have hmem : m ∈ (Registry.rooted.resolve linkedWorkspace "link").1.context.callable := hm
  rw [hcallable, hnone] at hmem
  cases hmem

/-- A group is formed from two spellings of a source that is in use already, and the name of a source that does not
    exist. -/
theorem formed_from_spellings : ∃ (w : Workspace Stage) (r : Registry), r.Settled ∧ r.usersAt ⟨"/spin"⟩ = 1 ∧
    (form w r ⟨0, 1⟩ ["spin/", "gone", "link"]).2.2.identities = ["spin/"] ∧
    (form w r ⟨0, 1⟩ ["spin/", "gone", "link"]).2.2.unresolved = ["gone"] ∧
    (form w r ⟨0, 1⟩ ["spin/", "gone", "link"]).2.1.usersAt ⟨"/spin"⟩ = 2 ∧
    (teardown (form w r ⟨0, 1⟩ ["spin/", "gone", "link"]).1 (form w r ⟨0, 1⟩ ["spin/", "gone", "link"]).2.1
      (form w r ⟨0, 1⟩ ["spin/", "gone", "link"]).2.2 .detachEntity).2.usersAt ⟨"/spin"⟩ = 1 := by
  obtain ⟨w, r, hresolve⟩ := GroupSession.resolve_linked
  obtain ⟨hfiles, hsetting, -⟩ := Registry.resolve_ok hresolve
  have hkeyOf : ∀ identity, r.keyOf w.files identity = Registry.rooted.keyOf linkedWorkspace.files identity :=
    Registry.keyOf_congr hsetting hfiles
  have hread : ∀ p, w.readSource p = linkedWorkspace.readSource p := Workspace.readSource_congr hfiles
  have hempty : Registry.rooted.Settled := fun k s hs => nomatch hs
  have hr : r.Settled := by
    have hsettled := (Registry.settled_iff.1 hempty).resolve Script.inborn_settled linkedWorkspace "link"
    rwa [hresolve] at hsettled
  have hone : r.usersAt ⟨"/spin"⟩ = 1 := by
    rw [Registry.usersAt_resolve hresolve, if_pos (Path.Same.refl _)]
    rfl
  have hknown : r.knows ⟨"/spin"⟩ = true := Registry.knows_resolve hresolve
  have hspin : r.keyOf w.files "spin/" = ⟨"/spin"⟩ := (hkeyOf _).trans Registry.keyOf_spin_slashed
  have hlink : r.keyOf w.files "link" = ⟨"/spin"⟩ := (hkeyOf _).trans (keyOf_linked Script.spinSource)
  have hgone : r.keyOf w.files "gone" = ⟨"/gone"⟩ := (hkeyOf _).trans keyOf_gone
  have hreflects : w.context.bootstrap.1.compiler.Reflects := by
    have hlinked := reflects_resolve_linked
    rwa [hresolve] at hlinked
  have hplain : ∀ identity ∈ ["spin/", "gone", "link"], ∀ source,
      w.readSource (r.keyOf w.files identity) = .ok source → Plain source := by
    intro identity hidentity source hsource
    rw [hkeyOf, hread] at hsource
    exact plain_linked hidentity hsource
  obtain ⟨hformed, hdissolved⟩ := formed_and_dissolved w hr ⟨0, 1⟩ ["spin/", "gone", "link"]
  have htold := hformed.told hreflects hplain
  obtain ⟨a, b, c, htrials⟩ : ∃ a b c, trials w r { entity := ⟨0, 1⟩ } ["spin/", "gone", "link"] =
      [("spin/", a), ("gone", b), ("link", c)] := ⟨_, _, _, rfl⟩
  rw [htrials] at htold
  -- the source is known, and there is nothing by the other name
  obtain rfl : a = true := (htold 0 _ _ rfl).2 (hspin ▸ .inl hknown)
  obtain rfl : c = true := (htold 2 _ _ rfl).2 (hlink ▸ .inl hknown)
  obtain rfl : b = false := by
    rw [← Bool.not_eq_true]
    intro hb
    have hwithin := (htold 1 _ _ rfl).1 hb
    have hapart : ¬ Path.Same ⟨"/gone"⟩ ⟨"/spin"⟩ := by decide +kernel
    rw [hgone] at hwithin
    rcases hwithin with hknows | ⟨identity, hidentity, hsame, source, d, hsource, -⟩
    · rcases (Registry.knows_of_resolve hresolve ⟨"/gone"⟩).1 hknows with hnever | hsame
      · cases hnever
      · exact hapart hsame
    · have hcases : identity = "spin/" ∨ identity = "gone" := by simpa using hidentity
      rcases hcases with rfl | rfl
      · exact hapart (hspin ▸ hsame).symm
      · obtain ⟨error, herror⟩ := readSource_gone
        rw [hgone, hread, herror] at hsource
        cases hsource
  have hidentities : (form w r ⟨0, 1⟩ ["spin/", "gone", "link"]).2.2.identities = ["spin/"] := by
    rw [hformed.first, htrials]
    show List.eraseDupsBy _ ["spin/", "link"] = _
    rw [List.eraseDupsBy_cons]
    simp [hspin, hlink, Path.Same.refl]
  have hholds : (form w r ⟨0, 1⟩ ["spin/", "gone", "link"]).2.2.holds ⟨"/spin"⟩ = true := by
    obtain ⟨s, hs, hs₁⟩ := List.mem_map.1 (hidentities ▸ List.mem_cons_self (a := "spin/") (l := []))
    have hleads := hformed.leads s hs
    rw [hs₁, hspin] at hleads
    exact holds_iff.2 ⟨s.2, List.mem_map_of_mem hs, hleads.symm⟩
  refine ⟨w, r, hr, hone, hidentities, ?_, ?_, (hdissolved.users _).trans hone⟩
  · rw [hformed.unresolved, htrials]
    rfl
  · rw [hformed.users, hone, hholds]
    rfl

end ScriptGroup

end HotReload
