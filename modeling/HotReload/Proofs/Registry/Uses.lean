import HotReload.Proofs.Registry.GroupSession
import HotReload.Proofs.Script.Roster
import Mathlib.Data.List.Perm.Subperm

/-! # Uses and groups

    A registry counts the users of its scripts, and a group counts once for every script
    that it holds.  But a group gives a script up by the identity that the script was
    listed by, and where that identity leads is a matter of the files at that time.

    So the books are right in every state of a run exactly if every group that is taken
    down *finds back*: among the places that its identities lead to by then are all the
    scripts that it holds.  The books are wrong for good as soon as one group does not. -/

namespace HotReload

variable {η : Type}

/-! ## Section 1 - counting -/

/-- As many paths as there are keys, among them all the keys, are these keys in another order. -/
theorem countP_of_covered {keys paths : List Path} (hapart : keys.Pairwise fun a b => ¬ a.Same b)
    (hlength : paths.length = keys.length) (hcovered : ∀ key ∈ keys, ∃ p ∈ paths, p.Same key) (k : Path) :
    paths.countP (fun p => decide (k.Same p)) =
      if keys.any fun key => decide (key.Same k) then 1 else 0 := by
  have hnodup : (keys.map Path.components).Nodup := List.pairwise_map.2 hapart
  have hsubset : keys.map Path.components ⊆ paths.map Path.components := by
    intro c hc
    obtain ⟨key, hkey, rfl⟩ := List.mem_map.1 hc
    obtain ⟨p, hp, hsame⟩ := hcovered key hkey
    exact List.mem_map.2 ⟨p, hp, hsame⟩
  have hperm : (keys.map Path.components).Perm (paths.map Path.components) :=
    (List.subperm_of_subset hnodup hsubset).perm_of_length_le (by simp [hlength])
  have hcount : paths.countP (fun p => decide (k.Same p)) = (paths.map Path.components).count k.components := by
    rw [List.count, List.countP_map]
    apply List.countP_congr
    intro p _
    rw [decide_eq_true_iff, Function.comp_apply, beq_iff_eq]
    exact eq_comm
  rw [hcount, ← hperm.count_eq, hnodup.count]
  congr 1
  simp only [List.any_eq_true, List.mem_map, decide_eq_true_eq]
  rfl

namespace Registry

/-- Whether there is an entry under a key. -/
def knows (r : Registry) (k : Path) : Bool := (r.standing? k).isSome

theorem knows_congr {r : Registry} {k key : Path} (h : k.Same key) : r.knows k = r.knows key := by
  unfold knows standing?
  rw [find?_congr r h]

theorem usersAt_of_standing? {r r' : Registry} {k : Path} (h : r'.standing? k = r.standing? k) :
    r'.usersAt k = r.usersAt k := by
  unfold usersAt
  rw [h]

theorem usersAt_of_unknown {r : Registry} {k : Path} (h : r.knows k = false) : r.usersAt k = 0 := by
  unfold knows at h
  unfold usersAt
  cases hk : r.standing? k with
  | none => rfl
  | some s => simp [hk] at h

theorem Carries.knows {r r' : Registry} (h : r.Carries r') {k : Path} (hk : r.knows k = true) :
    r'.knows k = true := by
  unfold Registry.knows standing? at hk ⊢
  cases he : r.find? k with
  | none => simp [he] at hk
  | some e =>
    obtain ⟨e', he', -⟩ := h k e he
    simp [he']

section uses
variable {r r' : Registry} {w w' : Workspace η} {identity : String}

theorem usersAt_resolve {key : Path} (h : r.resolve w identity = (w', r', .ok key)) (k : Path) :
    r'.usersAt k = r.usersAt k + if k.Same key then 1 else 0 := by
  unfold usersAt
  rw [standing?_resolve h]
  by_cases hsame : k.Same key <;> simp [hsame, usersAt]

theorem knows_resolve {key : Path} (h : r.resolve w identity = (w', r', .ok key)) : r'.knows key = true := by
  unfold knows
  rw [standing?_resolve h]
  simp [Path.Same.refl]

theorem usersAt_release (r : Registry) (f : Files) (identity : String) (k : Path) :
    (r.release f identity).1.usersAt k =
      r.usersAt k - if k.Same (r.keyOf f identity) then 1 else 0 := by
  unfold usersAt
  rw [standing?_release]
  by_cases hsame : k.Same (r.keyOf f identity)
  · cases r.standing? k <;> simp [hsame]
  · simp [hsame]

theorem knows_release (r : Registry) (f : Files) (identity : String) (k : Path) :
    (r.release f identity).1.knows k = r.knows k := by
  unfold knows
  rw [standing?_release]
  by_cases hsame : k.Same (r.keyOf f identity) <;> simp [hsame]

end uses

end Registry

namespace ScriptGroup

/-- The number of uses that a group makes of a script. -/
def uses (g : ScriptGroup) (k : Path) : Nat := if g.holds k then 1 else 0

/-- One more script is used once more. -/
theorem uses_append {g : ScriptGroup} {key : Path} (hnew : g.holds key = false) (identity : String)
    (k : Path) : uses { g with scripts := g.scripts ++ [(identity, key)] } k =
      g.uses k + if k.Same key then 1 else 0 := by
  have hholds : holds { g with scripts := g.scripts ++ [(identity, key)] } k =
      (g.holds k || decide (key.Same k)) := by
    simp [holds]
  unfold uses
  rw [hholds]
  by_cases hsame : k.Same key
  · rw [holds_congr hsame, hnew]
    simp [hsame, hsame.symm]
  · have hother : ¬ key.Same k := fun hk => hsame hk.symm
    simp [hsame, hother]

end ScriptGroup

/-! ## Section 2 - forming a group -/

/-- How a group under way stands to the registry that it was begun with. -/
structure Joining (f : Files) (r₀ r : Registry) (g : ScriptGroup) : Prop where
  setting : r.setting = r₀.setting
  counted : ∀ k, r.usersAt k = r₀.usersAt k + g.uses k
  known : ∀ k ∈ g.keys, r.knows k = true
  apart : g.keys.Pairwise fun a b => ¬ a.Same b
  /-- Every script is the one that its identity leads to. -/
  leads : ∀ s ∈ g.scripts, (r₀.keyOf f s.1).Same s.2

namespace Joining

open ScriptGroup (keys)

variable [Host η] {r₀ r : Registry} {g : ScriptGroup}

/-- One more script in the group is one more user of that script, and of no other. -/
theorem snoc {f : Files} {r' : Registry} {identity : String} {key : Path} (h : Joining f r₀ r g)
    (hsetting : r'.setting = r₀.setting) (hnew : g.holds key = false)
    (hcounted : ∀ k, r'.usersAt k = r.usersAt k + if k.Same key then 1 else 0)
    (hkept : ∀ k ∈ g.keys, r'.knows k = true) (hknown : r'.knows key = true)
    (hleads : (r₀.keyOf f identity).Same key) :
    Joining f r₀ r' { g with scripts := g.scripts ++ [(identity, key)] } := by
  have hkeys : keys { g with scripts := g.scripts ++ [(identity, key)] } = g.keys ++ [key] := by
    simp [ScriptGroup.keys]
  have hother : ∀ key' ∈ g.keys, ¬ key'.Same key := by
    intro key' hmem hsame
    rw [ScriptGroup.holds_iff.2 ⟨key', hmem, hsame⟩] at hnew
    cases hnew
  refine ⟨hsetting, fun k => ?_, fun k hk => ?_, ?_, fun s hs => ?_⟩
  · rw [hcounted, h.counted, ScriptGroup.uses_append hnew, Nat.add_assoc]
  · rw [hkeys] at hk
    rcases List.mem_append.1 hk with hold | hnew
    · exact hkept k hold
    · rw [List.mem_singleton.1 hnew]
      exact hknown
  · rw [hkeys, List.pairwise_append]
    refine ⟨h.apart, by simp, fun a ha b hb => ?_⟩
    rw [List.mem_singleton.1 hb]
    exact hother a ha
  · rcases List.mem_append.1 hs with hold | hnew
    · exact h.leads s hold
    · rw [List.mem_singleton.1 hnew]
      exact hleads

theorem add {w : Workspace η} {f : Files} (h : Joining f r₀ r g) (hf : w.files = f) (identity : String) :
    Joining f r₀ (g.add w r identity).2.1 (g.add w r identity).2.2 := by
  have hworked := ScriptGroup.worked_add w r g identity
  have hsetting := hworked.setting.trans h.setting
  have hkept : ∀ k ∈ g.keys, (g.add w r identity).2.1.knows k = true :=
    fun k hk => hworked.carries.knows (h.known k hk)
  rcases ScriptGroup.add_cases w r g identity with ⟨error, w', line, -, heq⟩ |
    ⟨w', r', key, hresolve, hholds, heq⟩ | ⟨w', r', key, hresolve, hholds, heq⟩ <;>
    rw [heq] at hsetting hkept ⊢
  · exact ⟨h.setting, h.counted, h.known, h.apart, h.leads⟩
  · -- the script is given up by the identity that it has just been found by
    obtain ⟨hfiles, hsetting', hkey, -⟩ := Registry.resolve_ok hresolve
    have hagain : r'.keyOf w'.files identity = r.keyOf w.files identity :=
      Registry.keyOf_congr hsetting' hfiles identity
    refine ⟨hsetting, fun k => ?_, hkept, h.apart, h.leads⟩
    rw [Registry.usersAt_release, Registry.usersAt_resolve hresolve, hagain, ← h.counted]
    simp [same_iff_of_same hkey]
  · obtain ⟨-, -, hkey, -⟩ := Registry.resolve_ok hresolve
    have hstanding := ScriptGroup.standing?_attach w' r' g.entity key
    refine h.snoc hsetting hholds (fun k => ?_) hkept ?_ ?_
    · rw [Registry.usersAt_of_standing? (hstanding k), Registry.usersAt_resolve hresolve k]
    · rw [Registry.knows, hstanding]
      exact Registry.knows_resolve hresolve
    · rw [← Registry.keyOf_congr h.setting hf identity]
      exact hkey.symm

theorem addEach {w : Workspace η} {f : Files} (h : Joining f r₀ r g) (hf : w.files = f)
    (identities : List String) :
    Joining f r₀ (g.addEach w r identities).2.1 (g.addEach w r identities).2.2 := by
  induction identities generalizing w r g with
  | nil => exact h
  | cons identity rest ih =>
    have hfiles := (ScriptGroup.worked_add w r g identity).files
    exact ih (h.add hf identity) (hfiles.trans hf)

theorem start (f : Files) (r : Registry) (e : Entity) : Joining f r r { entity := e } :=
  ⟨rfl, fun _ => rfl, by simp [ScriptGroup.keys], by simp [ScriptGroup.keys], by simp⟩

/-- A group that has just been formed counts once for every script that it holds. -/
theorem form (w : Workspace η) (r : Registry) (e : Entity) (identities : List String) :
    Joining w.files r (ScriptGroup.form w r e identities).2.1 (ScriptGroup.form w r e identities).2.2 :=
  (start w.files r e).addEach rfl identities

end Joining

/-! ## Section 3 - taking a group down -/

namespace ScriptGroup
variable [Host η]

/-- How many identities of a group lead to a key. -/
def leading (g : ScriptGroup) (r : Registry) (f : Files) (k : Path) : Nat :=
  g.identities.countP fun identity => decide (k.Same (r.keyOf f identity))

/-- Whether the identities of a group lead to all the scripts that it holds. -/
def findsBack (g : ScriptGroup) (r : Registry) (f : Files) : Prop :=
  ∀ key ∈ g.keys, ∃ identity ∈ g.identities, (r.keyOf f identity).Same key

instance (g : ScriptGroup) (r : Registry) (f : Files) : Decidable (g.findsBack r f) :=
  inferInstanceAs (Decidable (∀ key ∈ g.keys, ∃ identity ∈ g.identities, (r.keyOf f identity).Same key))

theorem standings_releaseEach (w : Workspace η) (r : Registry) (e : Entity) (policy : TeardownPolicy)
    (scripts : List (String × Path)) (k : Path) :
    (releaseEach w r e policy scripts).2.usersAt k =
        r.usersAt k - (scripts.map Prod.fst).countP (fun identity => decide (k.Same (r.keyOf w.files identity))) ∧
      (releaseEach w r e policy scripts).2.knows k = r.knows k := by
  induction scripts generalizing w r with
  | nil => exact ⟨rfl, rfl⟩
  | cons script rest ih =>
    obtain ⟨identity, key⟩ := script
    have hleave := worked_leave w r e key policy
    have hreleased := hleave.release identity
    -- the identities lead to the same places all the time
    have hkeyOf : ∀ identity', ((leave w r e key policy).2.release (leave w r e key policy).1.files identity).1.keyOf
        (leave w r e key policy).1.files identity' = r.keyOf w.files identity' :=
      Registry.keyOf_congr hreleased.setting hleave.files
    obtain ⟨husers, hknows⟩ := ih (leave w r e key policy).1
      ((leave w r e key policy).2.release (leave w r e key policy).1.files identity).1
    rw [releaseEach_cons, husers, hknows, Registry.usersAt_release, Registry.knows_release,
      Registry.keyOf_congr hleave.setting hleave.files, Registry.usersAt_of_standing? (standing?_leave ..),
      Registry.knows, standing?_leave]
    refine ⟨?_, rfl⟩
    simp only [hkeyOf, List.map_cons, List.countP_cons, decide_eq_true_eq]
    omega

/-- A group that finds back gives up exactly what it uses. -/
theorem leading_of_findsBack {g : ScriptGroup} {r : Registry} {f : Files}
    (hapart : g.keys.Pairwise fun a b => ¬ a.Same b) (hback : g.findsBack r f) (k : Path) :
    g.leading r f k = g.uses k := by
  have hlength : (g.identities.map (r.keyOf f)).length = g.keys.length := by
    simp [identities, keys]
  have hcovered : ∀ key ∈ g.keys, ∃ p ∈ g.identities.map (r.keyOf f), p.Same key := by
    intro key hkey
    obtain ⟨identity, hmem, hsame⟩ := hback key hkey
    exact ⟨_, List.mem_map_of_mem hmem, hsame⟩
  have hcount := countP_of_covered hapart hlength hcovered k
  rw [List.countP_map] at hcount
  unfold leading uses
  rw [holds_eq, ← hcount]
  rfl

/-- What a group does not give up is not among the places that its identities lead to. -/
theorem findsBack_of_leading {g : ScriptGroup} {r : Registry} {f : Files}
    (h : ∀ key ∈ g.keys, 0 < g.leading r f key) : g.findsBack r f := by
  intro key hkey
  obtain ⟨identity, hmem, hsame⟩ := List.countP_pos_iff.1 (h key hkey)
  exact ⟨identity, hmem, (of_decide_eq_true hsame).symm⟩

theorem usersAt_teardown (w : Workspace η) (r : Registry) (g : ScriptGroup) (policy : TeardownPolicy)
    (k : Path) : (g.teardown w r policy).2.usersAt k = r.usersAt k - g.leading r w.files k :=
  (standings_releaseEach w r g.entity policy g.scripts k).1

theorem knows_teardown (w : Workspace η) (r : Registry) (g : ScriptGroup) (policy : TeardownPolicy)
    (k : Path) : (g.teardown w r policy).2.knows k = r.knows k :=
  (standings_releaseEach w r g.entity policy g.scripts k).2

end ScriptGroup

/-! ## Section 4 - the books of a session -/

/-- Whether an operation takes a single script into use, or gives one up, without a group. -/
def GroupOp.isLone : GroupOp η → Bool
  | .resolve _ | .release _ => true
  | _ => false

namespace GroupSession

/-- How many groups hold a script. -/
def holders (c : GroupSession η) (k : Path) : Nat := c.groups.countP fun g => g.holds k

/-- The books of a session are right: every script has as many users as groups hold it, and it is out of
    service exactly if none does. -/
def Accounted (c : GroupSession η) : Prop :=
  ∀ e ∈ c.registry.entries, e.users = c.holders e.key ∧ (e.script.discarded = true ↔ c.holders e.key = 0)

/-- Whether the group at a place finds back to its scripts. -/
def findsBack (c : GroupSession η) (k : Nat) : Prop :=
  ∀ g, c.groups[k]? = some g → g.findsBack c.registry c.workspace.files

theorem holders_eq_zero {c : GroupSession η} {k : Path} (h : ∀ g ∈ c.groups, g.holds k = false) :
    c.holders k = 0 := by
  unfold holders
  rw [List.countP_eq_zero]
  intro g hg
  simp [h g hg]

theorem holders_append (groups : List ScriptGroup) (g : ScriptGroup) (k : Path) :
    (groups ++ [g]).countP (fun g => g.holds k) = groups.countP (fun g => g.holds k) + g.uses k := by
  simp [List.countP_append, ScriptGroup.uses, List.countP_cons]

theorem holders_eraseIdx {groups : List ScriptGroup} {i : Nat} {g : ScriptGroup} (h : groups[i]? = some g)
    (k : Path) :
    (groups.eraseIdx i).countP (fun g => g.holds k) + g.uses k = groups.countP (fun g => g.holds k) := by
  obtain ⟨hlt, rfl⟩ := List.getElem?_eq_some_iff.1 h
  have hperm := List.getElem_cons_eraseIdx_perm hlt
  rw [← hperm.countP_eq fun g => g.holds k, List.countP_cons]
  rfl

/-- What is true of a session in any case, whether its books are right or not. -/
structure Orderly (c : GroupSession η) : Prop where
  distinct : c.registry.Distinct
  honest : c.registry.Honest
  /-- Whatever a group holds has an entry. -/
  known : ∀ g ∈ c.groups, ∀ k ∈ g.keys, c.registry.knows k = true
  /-- No group holds a script twice. -/
  apart : ∀ g ∈ c.groups, g.keys.Pairwise fun a b => ¬ a.Same b

namespace Orderly
variable {c : GroupSession η}

theorem fresh (w : Workspace η) (r : Registry) : (fresh w r).Orderly where
  distinct := .nil
  honest := by
    intro k users discarded hk
    cases hk
  known := by
    intro g hg
    cases hg
  apart := by
    intro g hg
    cases hg

variable [Host η]

/-- Every operation leaves a session orderly. -/
theorem step (h : c.Orderly) (d : GroupOp η) : (c.step d).Orderly := by
  cases huse : d.isUse with
  | false =>
    obtain ⟨hstanding, hkeys, hgroups⟩ := c.step_of_aside huse
    refine ⟨h.distinct.of_keys hkeys, h.honest.of_standing? hstanding, ?_, by rw [hgroups]; exact h.apart⟩
    intro g hg k hk
    rw [hgroups] at hg
    rw [Registry.knows, hstanding]
    exact h.known g hg k hk
  | true =>
    have hworked := c.worked_step huse
    refine ⟨hworked.distinct h.distinct, hworked.honest h.honest, ?_, ?_⟩
    · intro g hg k hk
      rcases mem_groups_step hg with hg | ⟨e, identities, rfl, rfl⟩
      · exact hworked.carries.knows (h.known g hg k hk)
      · exact (Joining.form c.workspace c.registry e identities).known k hk
    · intro g hg
      rcases mem_groups_step hg with hg | ⟨e, identities, rfl, rfl⟩
      · exact h.apart g hg
      · exact (Joining.form c.workspace c.registry e identities).apart

theorem run (h : c.Orderly) (ops : List (GroupOp η)) : (c.run ops).Orderly := by
  induction ops generalizing c with
  | nil => exact h
  | cons d rest ih => exact ih (h.step d)

end Orderly

/-! ## Section 5 - right books and wrong ones -/

/-- The books by the keys: every script has as many users as groups hold it. -/
def Balanced (c : GroupSession η) : Prop := ∀ k, c.registry.knows k = true → c.registry.usersAt k = c.holders k

variable {c : GroupSession η}

/-- In an orderly session that is all there is to the books. -/
theorem Orderly.accounted_iff (h : c.Orderly) : c.Accounted ↔ c.Balanced := by
  constructor
  · intro haccounted k hk
    unfold Registry.knows Registry.standing? at hk
    cases he : c.registry.find? k with
    | none => simp [he] at hk
    | some e =>
      have hkey := Registry.key_of_find? he
      obtain ⟨husers, -⟩ := haccounted e (Registry.mem_of_find? he)
      have hat : c.registry.usersAt k = e.users := by
        unfold Registry.usersAt Registry.standing?
        rw [he]
        rfl
      rw [hat, husers]
      unfold holders
      simp only [ScriptGroup.holds_congr hkey]
  · intro hbalanced e he
    have hfind := h.distinct.find?_of_mem he
    have hstanding : c.registry.standing? e.key = some (e.users, e.script.discarded) := by
      unfold Registry.standing?
      rw [hfind]
      rfl
    have husers : e.users = c.holders e.key := by
      rw [← hbalanced e.key (by simp [Registry.knows, hstanding])]
      simp [Registry.usersAt, hstanding]
    refine ⟨husers, ?_⟩
    rw [← husers]
    exact h.honest _ _ _ hstanding

/-- The books stay right under a change that leaves the standing of the scripts and the groups alone. -/
theorem Balanced.of_standing? (h : c.Balanced) {c' : GroupSession η}
    (hstanding : ∀ k, c'.registry.standing? k = c.registry.standing? k) (hgroups : c'.groups = c.groups) :
    c'.Balanced := by
  intro k hk
  rw [Registry.knows, hstanding] at hk
  rw [Registry.usersAt_of_standing? (hstanding k), h k hk, holders, holders, hgroups]

theorem balanced_fresh (w : Workspace η) (r : Registry) : (fresh w r).Balanced := by
  intro k hk
  cases hk

section ops
variable [Host η]

/-- A new group does not upset the books. -/
theorem Balanced.form (h : c.Balanced) (ho : c.Orderly) (e : Entity) (identities : List String) :
    (c.step (.form e identities)).Balanced := by
  have hjoining := Joining.form c.workspace c.registry e identities
  intro k _
  have hholders : (c.step (.form e identities)).holders k =
      c.holders k + (ScriptGroup.form c.workspace c.registry e identities).2.2.uses k :=
    holders_append _ _ k
  rw [hholders]
  refine (hjoining.counted k).trans ?_
  congr 1
  cases hk : c.registry.knows k with
  | true => exact h k hk
  | false =>
    -- nobody holds a script that has no entry
    rw [Registry.usersAt_of_unknown hk, holders_eq_zero]
    intro g hg
    by_contra hholds
    obtain ⟨key, hkey, hsame⟩ := ScriptGroup.holds_iff.1 (by simpa using hholds)
    rw [← Registry.knows_congr hsame, ho.known g hg key hkey] at hk
    cases hk

/-- Taking down a group leaves the books right exactly if the group finds back. -/
theorem Balanced.teardown_iff (h : c.Balanced) (ho : c.Orderly) (i : Nat) (policy : TeardownPolicy) :
    (c.step (.teardown i policy)).Balanced ↔ c.findsBack i := by
  cases hg : c.groups[i]? with
  | none =>
    rw [step_teardown_of_none hg]
    refine ⟨fun _ g hg' => ?_, fun _ => h⟩
    rw [hg] at hg'
    cases hg'
  | some g =>
    rw [step_teardown_of_some hg]
    have hmem : g ∈ c.groups := List.mem_of_getElem? hg
    have hholders := holders_eraseIdx hg
    have husers := g.usersAt_teardown c.workspace c.registry policy
    have hknows := g.knows_teardown c.workspace c.registry policy
    constructor
    · intro hbalanced g' hg'
      obtain rfl : g = g' := Option.some.inj (hg.symm.trans hg')
      refine ScriptGroup.findsBack_of_leading fun key hkey => ?_
      -- the group has counted for this script, and does not any more
      have hknown := ho.known g hmem key hkey
      have hbefore : c.registry.usersAt key = c.holders key := h key hknown
      have hafter := hbalanced key ((hknows key).trans hknown)
      have hone : g.uses key = 1 := by
        have hholds : g.holds key = true := ScriptGroup.holds_iff.2 ⟨key, hkey, .refl key⟩
        simp [ScriptGroup.uses, hholds]
      have hsum := hholders key
      rw [husers key] at hafter
      unfold holders at hafter hbefore
      dsimp only at hafter
      omega
    · intro hback k hk
      have hknown : c.registry.knows k = true := (hknows k).symm.trans hk
      have hbefore : c.registry.usersAt k = c.holders k := h k hknown
      have hleading := ScriptGroup.leading_of_findsBack (ho.apart g hmem) (hback g hg) k
      have hsum := hholders k
      rw [husers k, hleading]
      unfold holders at hbefore ⊢
      dsimp only
      omega

/-- The books stay right, unless a group is taken down that does not find back. -/
theorem Balanced.step_iff (h : c.Balanced) (ho : c.Orderly) {d : GroupOp η} (hd : d.isLone = false) :
    (c.step d).Balanced ↔ ∀ k policy, d = .teardown k policy → c.findsBack k := by
  cases huse : d.isUse with
  | false =>
    obtain ⟨hstanding, -, hgroups⟩ := c.step_of_aside huse
    refine iff_of_true (h.of_standing? hstanding hgroups) ?_
    rintro k policy rfl
    cases huse
  | true =>
    cases d with
    | form e identities => exact iff_of_true (h.form ho e identities) (by rintro _ _ ⟨⟩)
    | teardown k policy =>
      rw [h.teardown_iff ho]
      constructor
      · rintro hback k' policy' ⟨⟩
        exact hback
      · exact fun hback => hback k policy rfl
    | resolve identity => cases hd
    | release identity => cases hd
    | edit files touches => cases huse
    | others w => cases huse
    | request identity => cases huse
    | poll keys => cases huse
    | drain => cases huse

/-- The books are right all the way exactly if every group that is taken down finds back. -/
theorem Balanced.run_iff (h : c.Balanced) (ho : c.Orderly) {ops : List (GroupOp η)}
    (hops : ∀ d ∈ ops, d.isLone = false) :
    (∀ before after, ops = before ++ after → (c.run before).Balanced) ↔
      ∀ before k policy after, ops = before ++ .teardown k policy :: after →
        (c.run before).findsBack k := by
  induction ops generalizing c with
  | nil =>
    refine iff_of_true ?_ ?_
    · intro before after heq
      obtain ⟨rfl, rfl⟩ := List.append_eq_nil_iff.1 heq.symm
      exact h
    · intro before k policy after heq
      cases before <;> cases heq
  | cons d rest ih =>
    have hstep := h.step_iff ho (hops d List.mem_cons_self)
    have hrest : ∀ d' ∈ rest, d'.isLone = false := fun d' hd' => hops d' (List.mem_cons_of_mem d hd')
    constructor
    · intro hall before k policy after heq
      have hnext : (c.step d).Balanced := hall [d] rest rfl
      cases before with
      | nil =>
        cases heq
        exact hstep.1 hnext k policy rfl
      | cons d' before =>
        cases heq
        refine (ih hnext (ho.step d) hrest).1 ?_ before k policy after rfl
        exact fun before' after' heq' => hall (d :: before') after' (by rw [heq']; rfl)
    · intro hback before after heq
      cases before with
      | nil => exact h
      | cons d' before =>
        cases heq
        have hnext : (c.step d).Balanced :=
          hstep.2 fun k policy heq' => hback [] k policy (before ++ after) (by rw [heq']; rfl)
        refine (ih hnext (ho.step d) hrest).2 ?_ before after rfl
        intro before' k policy after' heq'
        exact hback (d :: before') k policy after' (by rw [heq']; rfl)

end ops

/-! ## Section 6 - files that do not change -/

/-- Every identity of a group leads to the script that the group holds for it. -/
def Leading (c : GroupSession η) : Prop :=
  ∀ g ∈ c.groups, ∀ s ∈ g.scripts, (c.registry.keyOf c.workspace.files s.1).Same s.2

/-- Then the groups find back. -/
theorem Leading.findsBack (h : c.Leading) (k : Nat) : c.findsBack k := by
  intro g hg key hkey
  obtain ⟨s, hs, rfl⟩ := List.mem_map.1 hkey
  exact ⟨s.1, List.mem_map_of_mem hs, h g (List.mem_of_getElem? hg) s hs⟩

theorem leading_fresh (w : Workspace η) (r : Registry) : (fresh w r).Leading := by
  intro g hg
  cases hg

variable [Host η]

/-- It stays so as long as the files stay as they are. -/
theorem Leading.step (h : c.Leading) {d : GroupOp η} (hd : d.isEdit = false) : (c.step d).Leading := by
  intro g hg s hs
  have hkeyOf := Registry.keyOf_congr (c.setting_step d) (c.files_step hd) s.1
  rw [hkeyOf]
  rcases mem_groups_step hg with hg | ⟨e, identities, rfl, rfl⟩
  · exact h g hg s hs
  · exact (Joining.form c.workspace c.registry e identities).leads s hs

theorem Leading.run (h : c.Leading) {ops : List (GroupOp η)} (hops : ∀ d ∈ ops, d.isEdit = false) :
    (c.run ops).Leading := by
  induction ops generalizing c with
  | nil => exact h
  | cons d rest ih =>
    exact ih (h.step (hops d List.mem_cons_self)) fun d' hd' => hops d' (List.mem_cons_of_mem d hd')

/-- So nothing can go wrong with the books as long as the files do not change. -/
theorem accounted_of_unedited (w : Workspace η) (r : Registry) {ops : List (GroupOp η)}
    (hops : ∀ d ∈ ops, d.isLone = false ∧ d.isEdit = false) : ((fresh w r).run ops).Accounted := by
  have ho := Orderly.fresh w r
  rw [(ho.run ops).accounted_iff]
  refine ((balanced_fresh w r).run_iff ho fun d hd => (hops d hd).1).2 ?_ ops [] (by simp)
  intro before k policy after heq
  refine ((leading_fresh w r).run fun d hd => ?_).findsBack k
  exact (hops d (by rw [heq]; exact List.mem_append_left _ hd)).2

/-! ## Section 7 - the main theorem -/

/-- In a run of groups, over files that change in any way, the books are right in every state exactly if
    every group that is taken down finds back to its scripts: each script that it holds is where one
    of its identities leads to by then. -/
theorem accounted_iff_findsBack (w : Workspace η) (r : Registry) {ops : List (GroupOp η)}
    (hops : ∀ d ∈ ops, d.isLone = false) :
    (∀ before after, ops = before ++ after → ((fresh w r).run before).Accounted) ↔
      ∀ before k policy after, ops = before ++ .teardown k policy :: after →
        ((fresh w r).run before).findsBack k := by
  have ho := Orderly.fresh w r
  rw [← (balanced_fresh w r).run_iff ho hops]
  refine forall₃_congr fun before after _ => ?_
  exact (ho.run before).accounted_iff

/-- A group of one script. -/
def spinOps : List (GroupOp Stage) := [.form ⟨0, 1⟩ ["spin"], .teardown 0 .detachEntity]

/-- Its books are right in the end, since the files do not change. -/
theorem accounted_spin : (∀ d ∈ spinOps, d.isLone = false) ∧
    ((fresh Script.spinWorkspace .rooted).run spinOps).Accounted := by
  have hops : ∀ d ∈ spinOps, d.isLone = false := by decide
  have hunedited : ∀ d ∈ spinOps, d.isEdit = false := by decide
  refine ⟨hops, (accounted_iff_findsBack Script.spinWorkspace .rooted hops).2 ?_ spinOps [] rfl⟩
  intro before k policy after heq
  refine ((leading_fresh _ _).run fun d hd => hunedited d ?_).findsBack k
  rw [heq]
  exact List.mem_append_left _ hd

/-! ### A link that is removed -/

/-- A group does not find back if its only identity has come to lead elsewhere. -/
theorem not_findsBack_of_stray {w w' : Workspace η} {r r' : Registry} {identity : String} {key : Path}
    (hresolve : r.resolve w identity = (w', r', .ok key)) (e : Entity) {files : Files}
    (touches : List Touch) (hstray : ¬ (r.keyOf files identity).Same key) :
    ¬ (((⟨w, r, []⟩ : GroupSession η).step (.form e [identity])).step (.edit files touches)).findsBack 0 := by
  intro hback
  have hscripts : (ScriptGroup.form w r e [identity]).2.2.scripts = [(identity, key)] := by
    rw [(ScriptGroup.form_of_resolve hresolve e).1]
  obtain ⟨identity', hmem, hsame⟩ := hback (ScriptGroup.form w r e [identity]).2.2 rfl key
    (by simp [ScriptGroup.keys, hscripts])
  have hidentity : identity' = identity := by simpa [ScriptGroup.identities, hscripts] using hmem
  -- forming a group has left the settings alone, so only the files are new
  have hsetting := (ScriptGroup.worked_form w r e [identity]).setting
  rw [hidentity] at hsame
  exact hstray ((Registry.keyOf_congr (f := files) hsetting rfl identity) ▸ hsame)

/-- A source with some content, and a link to it. -/
def linkedFiles (content : String) : Files :=
  { entries := [(["spin"], .file content.toUTF8), (["link"], .link ⟨"/spin"⟩)] }

def linkedWorkspace : Workspace Stage := { files := linkedFiles Script.spinSource, host := {} }

theorem resolvePath_link : Registry.rooted.resolvePath "link" = ⟨"/link"⟩ := by decide +kernel

theorem isName_link : Path.IsName "link" := by decide +kernel

theorem resolve_link_eq (content : String) : (linkedFiles content).resolve ⟨"/link"⟩ = .ok ["spin"] := by
  have hspin : (linkedFiles content).Standing ["spin"] := Files.standing_file Script.isName_spin rfl
  have hlink : Files.entry? (linkedFiles content) ["link"] = some (.link (Files.canonical ["spin"])) := rfl
  exact Files.resolve_link (by decide +kernel) isName_link (by decide +kernel) hlink hspin (by simp)

theorem keyOf_linked (content : String) :
    Registry.rooted.keyOf (linkedFiles content) "link" = ⟨"/spin"⟩ := by
  rw [Registry.keyOf_rooted resolvePath_link, Files.normalize_of_resolved (by decide +kernel) (resolve_link_eq content)]
  rfl

/-- Without the link the identity leads elsewhere. -/
theorem keyOf_unlinked (content : ByteArray) :
    Registry.rooted.keyOf { entries := [(["spin"], .file content)] } "link" = ⟨"/link"⟩ := by
  have hgone := Files.resolve_free (f := { entries := [(["spin"], .file content)] }) (p := ⟨"/link"⟩)
    (by decide +kernel) isName_link (by decide +kernel) rfl
  rw [Registry.keyOf_rooted resolvePath_link,
    Files.normalize_of_failed (by decide +kernel) isName_link hgone (by decide +kernel) (by decide +kernel)]
  rfl

theorem readSource_linked : linkedWorkspace.readSource ⟨"/spin"⟩ = .ok Script.spinSource := by
  rw [Workspace.readSource, Script.readText_spin rfl]

/-- The source is loaded through the link. -/
theorem resolve_linked : ∃ w r, Registry.rooted.resolve linkedWorkspace "link" = (w, r, .ok ⟨"/spin"⟩) := by
  have hx := eq_ok_of_isOk (r := (linkedWorkspace.extract Script.spinSource).2) (by decide +kernel)
  have hkey : Registry.rooted.keyOf linkedWorkspace.files "link" = ⟨"/spin"⟩ := keyOf_linked Script.spinSource
  have hnew : Registry.rooted.find? ⟨"/spin"⟩ = none := rfl
  obtain ⟨w, s, hresolve, -, -⟩ := Registry.resolve_new hkey hnew readSource_linked hx
  exact ⟨w, _, hresolve⟩

/-- A group that was formed through the link, and is taken down after the link is gone. -/
def strayOps : List (GroupOp Stage) :=
  [.form ⟨0, 1⟩ ["link"], .edit Script.spinWorkspace.files [], .teardown 0 .detachEntity]

/-- The books are not right in every run of groups. -/
theorem books_go_wrong : ¬ ∀ (w : Workspace Stage) (r : Registry) (ops : List (GroupOp Stage)),
    (∀ d ∈ ops, d.isLone = false) → ∀ before after, ops = before ++ after →
      ((fresh w r).run before).Accounted := by
  intro hall
  obtain ⟨w, r, hresolve⟩ := resolve_linked
  have hstray : ¬ (Registry.rooted.keyOf Script.spinWorkspace.files "link").Same ⟨"/spin"⟩ := by
    rw [Script.spinWorkspace, keyOf_unlinked]
    decide +kernel
  have ho := Orderly.fresh linkedWorkspace Registry.rooted
  have hops : ∀ d ∈ strayOps, d.isLone = false := by decide
  refine not_findsBack_of_stray hresolve ⟨0, 1⟩ [] hstray ?_
  refine ((balanced_fresh linkedWorkspace Registry.rooted).run_iff ho hops).1 ?_
    (strayOps.take 2) 0 .detachEntity [] rfl
  intro before after heq
  exact (ho.run before).accounted_iff.1 (hall _ _ strayOps hops before after heq)

end GroupSession

end HotReload
