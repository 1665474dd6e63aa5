import HotReload.Proofs.Registry.Identities
import HotReload.Proofs.Script.Skipping

/-! # Forming a group

    A group is formed from a list of identities, in which identities may be repeated,
    lead to one script by several spellings, or lead to nothing that can be loaded.  The
    loop over the list asks the registry for each of them, and the registry grows under
    it: what is loaded for one identity is there already for the next.

    What the loop does to the registry and to the host is told by its *attempts*, which
    are the calls by which it attaches the entity.  There is one attempt for every script
    of the group, each finds its host as the one before has left it, and nothing but the
    attempts reaches the host (`Forming`). -/

namespace HotReload

variable {η : Type}

/-! ## Section 1 - what taking a script into use leaves alone -/

namespace Context

/-- Compiling a source does not change what expressions may call. -/
theorem callable_extract (c : Context) (source : String) : (c.extract source).context.callable = c.callable := by
  have hprepared : (c.compiled (c.bootstrap.1.compiler.compile (c.marked source)).1).bootstrapped = true :=
    c.bootstrapped_bootstrap
  unfold callable
  rw [context_extract, bootstrap_of_bootstrapped hprepared]
  exact c.bootstrap.1.compiler.modules_compile (c.marked source)

end Context

namespace Script

/-- A load compiles one source, or it comes to nothing before that. -/
theorem context_load_cases (w : Workspace η) (identity : String) (p : Path) (options : ScriptOptions) :
    (load w identity p options).1.context = w.context ∨
      ∃ text, (load w identity p options).1.context = (w.context.extract text).context := by
  unfold load
  cases w.readSource p with
  | error error => exact .inl rfl
  | ok text =>
    refine .inr ⟨text, ?_⟩
    have hcontext : (w.extract text).1.context = (w.context.extract text).context := rfl
    dsimp only
    unfold ofSource
    cases hx : w.extract text with
    | mk w₁ result =>
      rw [hx] at hcontext
      cases result with
      | error error => exact hcontext
      | ok extracted => exact (startWatch_fields _ _).2.1.trans hcontext

/-- A script is loaded exactly if its source can be read and compiled. -/
theorem isOk_load_iff (w : Workspace η) (identity : String) (p : Path) (options : ScriptOptions) :
    (load w identity p options).2.isOk = true ↔ w.Loads p := by
  constructor
  · intro hok
    cases hload : load w identity p options with
    | mk w' result =>
      rw [hload] at hok
      cases result with
      | error error => cases hok
      | ok s =>
        obtain ⟨text, extracted, hread, hx, -⟩ := load_ok hload
        exact ⟨text, extracted, hread, hx⟩
  · rintro ⟨text, extracted, hread, hx⟩
    obtain ⟨w', s, hload⟩ := load_of_extract hread hx identity options
    rw [hload]
    rfl

/-- How a script comes back into service is a matter of the files alone. -/
theorem resume_congr {w w' : Workspace η} (h : w'.files = w.files) (s : Script) :
    (resume w' s).2 = (resume w s).2 := by
  unfold resume startWatch
  rw [h]
  split
  · split
    · rfl
    · split <;> rfl
  · rfl

/-- A script in service is taken into use as it is. -/
theorem resume_of_serving {s : Script} (h : s.discarded = false) (w : Workspace η) : resume w s = (w, s) := by
  unfold resume
  rw [if_neg (by simp [h])]

/-- Attaching an entity is no matter of the compiler. -/
theorem context_attach [Host η] (w : Workspace η) (s : Script) (e : Entity) :
    (attach w s e).1.context = w.context := by
  rcases attach_cases w s e with ⟨-, heq⟩ | ⟨-, -, heq⟩ | ⟨-, type, ref, -, -, heq⟩ |
    ⟨-, type, error, line, -, -, heq⟩ <;> rw [heq] <;> rfl

end Script

namespace Registry

/-- What no compile can break of a context is not broken by taking a script into use. -/
theorem context_resolve {P : Context → Prop} (hP : ∀ c source, P c → P (c.extract source).context)
    {w : Workspace η} (h : P w.context) (r : Registry) (identity : String) :
    P (r.resolve w identity).1.context := by
  unfold resolve
  dsimp only
  cases r.find? (r.keyOf w.files identity) with
  | some entry =>
    obtain ⟨-, hcontext, -⟩ := Script.resume_fields w entry.script
    dsimp only
    rwa [hcontext]
  | none =>
    have hload : P (Script.load w identity (r.keyOf w.files identity) r.options).1.context := by
      rcases Script.context_load_cases w identity (r.keyOf w.files identity) r.options with hsame | ⟨text, hextract⟩
      · rwa [hsame]
      · rw [hextract]
        exact hP w.context text h
    dsimp only
    cases hresult : Script.load w identity (r.keyOf w.files identity) r.options with
    | mk w' result =>
      rw [hresult] at hload
      cases result <;> exact hload

/-- An identity can be taken into use exactly if its script is known, or its source can be read and compiled. -/
theorem isOk_resolve_iff (w : Workspace η) (r : Registry) (identity : String) :
    (r.resolve w identity).2.2.isOk = true ↔
      r.knows (r.keyOf w.files identity) = true ∨ w.Loads (r.keyOf w.files identity) := by
  cases hfind : r.find? (r.keyOf w.files identity) with
  | some entry =>
    obtain ⟨w', r', hresolve⟩ := resolve_known hfind
    have hknown : r.knows (r.keyOf w.files identity) = true := by
      rw [knows, standing?, hfind]
      rfl
    rw [hresolve]
    exact iff_of_true rfl (.inl hknown)
  | none =>
    have hunknown : ¬ r.knows (r.keyOf w.files identity) = true := by
      rw [knows, standing?, hfind]
      exact Bool.false_ne_true
    rw [or_iff_right hunknown, ← Script.isOk_load_iff w identity (r.keyOf w.files identity) r.options]
    unfold resolve
    dsimp only
    rw [hfind]
    dsimp only
    cases Script.load w identity (r.keyOf w.files identity) r.options with
    | mk w' result => cases result <;> exact Iff.rfl

/-- The script that an identity takes into use: it has an entry and is brought back into service, or it is loaded. -/
inductive Taken (w : Workspace η) (r : Registry) (identity : String) (key : Path) : Script → Prop where
  | known {entry : RegistryEntry} (h : r.find? key = some entry) : Taken w r identity key (entry.script.resume w).2
  | loaded {w₁ : Workspace η} {s : Script} (hnone : r.find? key = none) (hfiles : w₁.files = w.files)
    (h : (Script.load w₁ identity key r.options).2 = .ok s) : Taken w r identity key s

/-- Taking a script into use puts it where it belongs, and touches no other. -/
theorem taken_of_resolve {w w' : Workspace η} {r r' : Registry} {identity : String} {key : Path}
    (h : r.resolve w identity = (w', r', .ok key)) :
    (∃ s, r'.script? key = some s ∧ Taken w r identity key s) ∧ ∀ k, ¬ k.Same key → r'.find? k = r.find? k := by
  unfold resolve at h
  dsimp only at h
  cases hfind : r.find? (r.keyOf w.files identity) with
  | some entry =>
    rw [hfind] at h
    dsimp only at h
    cases h
    have hkey := key_of_find? hfind
    have hentry : r.find? entry.key = some entry := (find?_congr r hkey).trans hfind
    refine ⟨⟨(entry.script.resume w).2, ?_, .known hentry⟩, fun k hother => ?_⟩
    · rw [script?, find?_modify_of_find? (g := RegistryEntry.taken w) hfind (by intro; rfl) (by rfl), hentry]
      simp [hkey, RegistryEntry.taken]
    · have hother' : ¬ k.Same (r.keyOf w.files identity) := fun hsame => hother (hsame.trans hkey.symm)
      rw [find?_modify (by intro; rfl)]
      cases r.find? k <;> simp [hother']
  | none =>
    rw [hfind] at h
    dsimp only at h
    cases hload : Script.load w identity (r.keyOf w.files identity) r.options with
    | mk w₁ result =>
      rw [hload] at h
      cases result with
      | error error => cases h
      | ok s =>
        cases h
        refine ⟨⟨s, ?_, .loaded hfind rfl (congrArg Prod.snd hload)⟩, fun k hother => ?_⟩
        · rw [script?, find?_add, hfind]
          simp [Path.Same.refl]
        · have hother' : ¬ (r.keyOf w.files identity).Same k := fun hsame => hother hsame.symm
          rw [find?_add]
          simp [hother']

/-- A script in use that is taken once more and given up at once is as it was. -/
theorem find?_resolve_release {w w' : Workspace η} {r r' : Registry} {identity : String} {key : Path} {users : Nat}
    (h : r.resolve w identity = (w', r', .ok key)) (hserves : r.standing? key = some (users + 1, false)) (k : Path) :
    (r'.release w'.files identity).1.find? k = r.find? k := by
  obtain ⟨hfiles, hsetting, hkey, ⟨entry, hentry, hfind⟩ | ⟨entry, hnone, -⟩⟩ := resolve_ok h
  · obtain ⟨entry', hentry', hstanding⟩ := Option.map_eq_some_iff.1 hserves
    obtain rfl : entry = entry' := Option.some.inj (hentry.symm.trans hentry')
    obtain ⟨husers, hservice⟩ := Prod.mk.inj hstanding
    -- with somebody else in use of it, the script stays in service all the time
    have hback : (entry.taken w).released = entry := by
      have htaken : entry.taken w = { entry with users := entry.users + 1 } := by
        rw [RegistryEntry.taken, Script.resume_of_serving hservice]
      have hmore : entry.users + 1 - 1 > 0 := by
        rw [Nat.add_sub_cancel, husers]
        exact Nat.succ_pos users
      rw [htaken, RegistryEntry.released, if_pos hmore]
      rfl
    rw [find?_release, hfind, keyOf_congr hsetting hfiles]
    by_cases hsame : k.Same key
    · have hsame' : k.Same (r.keyOf w.files identity) := hsame.trans hkey
      rw [find?_congr r hsame, hentry]
      simp [hsame, hsame', hback]
    · have hother : ¬ k.Same (r.keyOf w.files identity) := fun hk => hsame (hk.trans hkey.symm)
      cases r.find? k <;> simp [hsame, hother]
  · rw [standing?, hnone] at hserves
    cases hserves

end Registry

/-! ## Section 2 - trials -/

namespace ScriptGroup
variable [Host η]

/-- The identities of a list in order, each with whether it can be taken into use when the loop comes to it. -/
def trials (w : Workspace η) (r : Registry) (g : ScriptGroup) : List String → List (String × Bool)
  | [] => []
  | identity :: rest =>
    let (w', r', g') := add w r g identity
    (identity, (r.resolve w identity).2.2.isOk) :: trials w' r' g' rest

/-- The identities that load. -/
def loading (trials : List (String × Bool)) : List String := (trials.filter fun t => t.2).map Prod.fst

/-- The identities that fail to load. -/
def failing (trials : List (String × Bool)) : List String := (trials.filter fun t => !t.2).map Prod.fst

theorem loading_true (identity : String) (trials : List (String × Bool)) :
    loading ((identity, true) :: trials) = identity :: loading trials :=
  rfl

/-- What cannot be loaded is kept in a list of its own, with repetitions. -/
theorem unresolved_addEach (w : Workspace η) (r : Registry) (g : ScriptGroup) (identities : List String) :
    (addEach w r g identities).2.2.unresolved = g.unresolved ++ failing (trials w r g identities) := by
  induction identities generalizing w r g with
  | nil => exact (List.append_nil _).symm
  | cons identity rest ih =>
    rw [addEach, trials]
    dsimp only
    rw [ih]
    rcases add_cases w r g identity with ⟨error, w', line, hresolve, heq⟩ | ⟨w', r', key, hresolve, -, heq⟩ |
      ⟨w', r', key, hresolve, -, heq⟩ <;> rw [hresolve, heq]
    · -- this one fails, so it stands in front of those that fail later
      show (g.unresolved ++ [identity]) ++ _ = g.unresolved ++ identity :: _
      rw [List.append_assoc]
      rfl
    · rfl
    · rfl

/-- The entity of a group stays the same. -/
theorem entity_addEach (w : Workspace η) (r : Registry) (g : ScriptGroup) (identities : List String) :
    (addEach w r g identities).2.2.entity = g.entity := by
  induction identities generalizing w r g with
  | nil => rfl
  | cons identity rest ih =>
    have hfirst : (add w r g identity).2.2.entity = g.entity := by
      rcases add_cases w r g identity with ⟨error, w', line, -, heq⟩ | ⟨w', r', key, -, -, heq⟩ |
        ⟨w', r', key, -, -, heq⟩ <;> rw [heq]
    exact (ih _ _ _).trans hfirst

/-- One more script is held besides those before. -/
theorem holds_append (g : ScriptGroup) (identity : String) (key k : Path) :
    holds { g with scripts := g.scripts ++ [(identity, key)] } k = (g.holds k || decide (key.Same k)) := by
  simp [holds]

/-- Of all the identities that load, the group keeps the first one of each script that it does not hold yet. -/
theorem identities_addEach {r₀ : Registry} {f : Files} {w : Workspace η} {r : Registry} {g : ScriptGroup}
    (hf : w.files = f) (hr : r.setting = r₀.setting) (identities : List String) :
    (addEach w r g identities).2.2.identities = g.identities ++
      ((loading (trials w r g identities)).filter fun i => !g.holds (r₀.keyOf f i)).eraseDupsBy
        fun a b => decide ((r₀.keyOf f a).Same (r₀.keyOf f b)) := by
  induction identities generalizing w r g with
  | nil => simp [addEach, trials, loading]
  | cons identity rest ih =>
    have hworked := worked_add w r g identity
    have hrest := ih (g := (add w r g identity).2.2) (hworked.files.trans hf) (hworked.setting.trans hr)
    rw [addEach, trials]
    dsimp only
    rw [hrest]
    rcases add_cases w r g identity with ⟨error, w', line, hresolve, heq⟩ |
      ⟨w', r', key, hresolve, hholds, heq⟩ | ⟨w', r', key, hresolve, hholds, heq⟩ <;> rw [hresolve, heq]
    · rfl
    · -- another spelling of a script that is held is left out
      have hheld : g.holds (r₀.keyOf f identity) = true := by
        rw [← Registry.keyOf_congr hr hf, ← holds_congr (Registry.resolve_ok hresolve).2.2.1]
        exact hholds
      dsimp only [Except.isOk, Except.toBool]
      rw [loading_true, List.filter_cons_of_neg (by simp [hheld])]
    · -- a new one comes last, and keeps its later spellings out
      have hkey : key.Same (r₀.keyOf f identity) := by
        rw [← Registry.keyOf_congr hr hf]
        exact (Registry.resolve_ok hresolve).2.2.1
      have hfree : g.holds (r₀.keyOf f identity) = false := by
        rw [← holds_congr hkey]
        exact hholds
      dsimp only [Except.isOk, Except.toBool]
      rw [loading_true, List.filter_cons_of_pos (by simp [hfree]), List.eraseDupsBy_cons, List.filter_filter]
      have hlast : identities { g with scripts := g.scripts ++ [(identity, key)] } = g.identities ++ [identity] := by
        simp [ScriptGroup.identities]
      rw [hlast, List.append_assoc, List.singleton_append]
      congr 3
      refine List.filter_congr fun i _ => ?_
      have hsame : key.Same (r₀.keyOf f i) ↔ (r₀.keyOf f i).Same (r₀.keyOf f identity) :=
        ⟨fun h => h.symm.trans hkey, fun h => hkey.trans h.symm⟩
      rw [holds_append, decide_eq_decide.2 hsame, Bool.not_or, Bool.and_comm, Bool.decide_eq_false]

end ScriptGroup

/-! ## Section 3 - attempts -/

/-- A call by which a loop over identities attaches its entity to a script. -/
structure Attempt (η : Type) where
  /-- The identity that has led to the script. -/
  identity : String
  key : Path
  workspace : Workspace η
  script : Script

namespace Attempt

/-- What stands for the script in the group. -/
def entry (a : Attempt η) : String × Path := (a.identity, a.key)

variable [Host η] {e : Entity} {h h' : η}

/-- What comes of an attempt to attach an entity. -/
def made (a : Attempt η) (e : Entity) : Workspace η × Script × Except HostError Unit := a.script.attach a.workspace e

/-- Attempts lead from one state of a host to another if each of them finds the host as the one before has left it,
    and nothing else happens to it. -/
def Leads (e : Entity) (h h' : η) : List (Attempt η) → Prop
  | [] => h' = h
  | a :: rest => a.workspace.host = h ∧ Leads e (a.made e).1.host h' rest

theorem Leads.snoc {attempts : List (Attempt η)} (hleads : Leads e h h' attempts) {a : Attempt η}
    (ha : a.workspace.host = h') : Leads e h (a.made e).1.host (attempts ++ [a]) := by
  induction attempts generalizing h with
  | nil =>
    have hsame : h' = h := hleads
    exact ⟨ha.trans hsame, rfl⟩
  | cons b rest ih =>
    obtain ⟨hfirst, hrest⟩ := hleads
    exact ⟨hfirst, ih hrest⟩

/-- How an attempt that a loop has made stands to the state that the loop was begun in, and to the present one: the
    script has been as it is taken into use, and is what the attempt has made of it. -/
structure Done (w₀ : Workspace η) (r₀ : Registry) (e : Entity) (r : Registry) (a : Attempt η) : Prop where
  modules : a.workspace.context.modules = w₀.context.modules
  taken : Registry.Taken w₀ r₀ a.identity a.key a.script
  script : r.script? a.key = some (a.made e).2.1

/-- Nobody else touches the script after the attempt. -/
theorem Done.of_find? {w₀ : Workspace η} {r₀ r r' : Registry} {a : Attempt η} (h : a.Done w₀ r₀ e r)
    (hfind : r'.find? a.key = r.find? a.key) : a.Done w₀ r₀ e r' := by
  refine ⟨h.modules, h.taken, ?_⟩
  rw [Registry.script?, hfind]
  exact h.script

end Attempt

/-! ## Section 4 - groups under way -/

/-- How a group under way stands to the state that it was begun in, with the attempts that have been made. -/
structure Forming [Host η] (w₀ : Workspace η) (r₀ : Registry) (w : Workspace η) (r : Registry) (g : ScriptGroup)
    (attempts : List (Attempt η)) : Prop where
  files : w.files = w₀.files
  modules : w.context.modules = w₀.context.modules
  callable : w.context.callable = w₀.context.callable
  joining : Joining w₀.files r₀ r g
  /-- What the group does not hold is as it was. -/
  others : ∀ k, g.holds k = false → r.find? k = r₀.find? k
  /-- What it holds has one user more, and is in service. -/
  serving : ∀ k, g.holds k = true → r.standing? k = some (r₀.usersAt k + 1, false)
  listed : attempts.map Attempt.entry = g.scripts
  done : ∀ a ∈ attempts, a.Done w₀ r₀ g.entity r
  leads : Attempt.Leads g.entity w₀.host w.host attempts

namespace Forming
variable [Host η] {w₀ w : Workspace η} {r₀ r : Registry} {g : ScriptGroup} {attempts : List (Attempt η)}

theorem start (w : Workspace η) (r : Registry) (e : Entity) : Forming w r w r { entity := e } [] where
  files := rfl
  modules := rfl
  callable := rfl
  joining := .start w.files r e
  others := fun _ _ => rfl
  serving := by
    intro k hk
    simp [ScriptGroup.holds] at hk
  listed := rfl
  done := by simp
  leads := rfl

theorem holds (h : Forming w₀ r₀ w r g attempts) {a : Attempt η} (ha : a ∈ attempts) : g.holds a.key = true := by
  have hentry : a.entry ∈ g.scripts := h.listed ▸ List.mem_map_of_mem ha
  exact ScriptGroup.holds_iff.2 ⟨a.key, List.mem_map_of_mem hentry, Path.Same.refl a.key⟩

/-- Whatever an identity comes to, the files stay as they are, and so does what the compiler offers. -/
theorem resolve (h : Forming w₀ r₀ w r g attempts) (identity : String) :
    (r.resolve w identity).1.files = w₀.files ∧ (r.resolve w identity).1.context.modules = w₀.context.modules ∧
      (r.resolve w identity).1.context.callable = w₀.context.callable := by
  have hcontext := Registry.context_resolve
    (P := fun c => c.modules = w₀.context.modules ∧ c.callable = w₀.context.callable)
    (fun c source hc => ⟨(c.modules_extract source).trans hc.1, (c.callable_extract source).trans hc.2⟩)
    ⟨h.modules, h.callable⟩ r identity
  exact ⟨(Registry.files_resolve w r identity).trans h.files, hcontext.1, hcontext.2⟩

/-- The script that an identity takes into use, if the group does not hold it yet, is taken as at the start. -/
theorem taken (h : Forming w₀ r₀ w r g attempts) {identity : String} {key : Path} {s : Script}
    (hnew : g.holds key = false) (hs : Registry.Taken w r identity key s) :
    Registry.Taken w₀ r₀ identity key s := by
  have hsame := h.others key hnew
  have hoptions : r.options = r₀.options := congrArg (fun p => p.2.2) h.joining.setting
  cases hs with
  | known hentry =>
    rw [Script.resume_congr h.files]
    exact .known (hsame ▸ hentry)
  | loaded hnone hfiles hload =>
    rw [hoptions] at hload
    exact .loaded (hsame ▸ hnone) (hfiles.trans h.files) hload

/-- The entity is attached to a script that the group has not held before. -/
theorem attempt (h : Forming w₀ r₀ w r g attempts) {identity : String} {w' : Workspace η} {r' : Registry} {key : Path}
    (hresolve : r.resolve w identity = (w', r', .ok key)) (hholds : g.holds key = false) {s : Script}
    (hs : r'.script? key = some s) (htaken : Registry.Taken w r identity key s) :
    Forming w₀ r₀ (g.add w r identity).1 (g.add w r identity).2.1 (g.add w r identity).2.2
      (attempts ++ [⟨identity, key, w', s⟩]) := by
  obtain ⟨hfiles, hmodules, hcallable⟩ := h.resolve identity
  have hhost := Registry.host_resolve w r identity
  have hjoining := h.joining.add h.files identity
  obtain ⟨-, -, hkey, -⟩ := Registry.resolve_ok hresolve
  obtain ⟨-, hothers⟩ := Registry.taken_of_resolve hresolve
  have hstanding := ScriptGroup.standing?_attach w' r' g.entity key
  let a : Attempt η := ⟨identity, key, w', s⟩
  have hvisit : r'.visit w' key (fun w s => s.attach w g.entity) =
      ((a.made g.entity).1, r'.setScript key (a.made g.entity).2.1, some (a.made g.entity).2.2) := by
    rw [Registry.visit, hs]
    rfl
  have hspared : ∀ k, ¬ k.Same key → (r'.setScript key (a.made g.entity).2.1).find? k = r.find? k := by
    intro k hother
    rw [Registry.setScript, Registry.find?_modify (by intro; rfl), hothers k hother]
    cases r.find? k <;> simp [hother]
  rw [hresolve] at hfiles hmodules hcallable hhost
  rw [ScriptGroup.add_new hresolve hholds, hvisit] at hjoining ⊢
  rw [hvisit] at hstanding
  refine ⟨(Script.attach_frame w' s g.entity).files.trans hfiles, ?_, ?_, hjoining, ?_, ?_, ?_, ?_, ?_⟩
  · rw [Attempt.made, Script.context_attach]
    exact hmodules
  · rw [Attempt.made, Script.context_attach]
    exact hcallable
  · intro k hk
    obtain ⟨hfree, hother⟩ : g.holds k = false ∧ ¬ key.Same k := by simpa [ScriptGroup.holds_append] using hk
    rw [hspared k fun hsame => hother hsame.symm, h.others k hfree]
  · intro k hk
    by_cases hsame : k.Same key
    · have hfree : g.holds k = false := by rw [ScriptGroup.holds_congr hsame, hholds]
      have hcounted : r.usersAt k = r₀.usersAt k := by simp [h.joining.counted k, ScriptGroup.uses, hfree]
      rw [hstanding, Registry.standing?_resolve hresolve, if_pos hsame, hcounted]
    · have hheld : g.holds k = true := by
        have hother : ¬ key.Same k := fun hk => hsame hk.symm
        simpa [ScriptGroup.holds_append, hother] using hk
      rw [Registry.standing?, hspared k hsame]
      exact h.serving k hheld
  · rw [List.map_append, h.listed]
    rfl
  · intro b hb
    rcases List.mem_append.1 hb with hold | hnew
    · refine (h.done b hold).of_find? (hspared b.key fun hsame => ?_)
      -- what has been attempted before is held already
      have hheld : g.holds b.key = true := h.holds hold
      rw [ScriptGroup.holds_congr hsame, hholds] at hheld
      cases hheld
    · rw [List.mem_singleton.1 hnew]
      refine ⟨hmodules, h.taken hholds htaken, ?_⟩
      obtain ⟨entry, hentry, -⟩ := Registry.script?_eq_some.1 hs
      rw [Registry.script?, Registry.setScript, Registry.find?_modify (by intro; rfl), hentry]
      simp [a, Path.Same.refl]
  · exact h.leads.snoc hhost

/-- One more identity leaves a group under way as it should be, with one more attempt if it has led to a script that
    the group did not hold yet. -/
theorem add (h : Forming w₀ r₀ w r g attempts) (identity : String) :
    ∃ attempts', Forming w₀ r₀ (g.add w r identity).1 (g.add w r identity).2.1 (g.add w r identity).2.2 attempts' := by
  obtain ⟨hfiles, hmodules, hcallable⟩ := h.resolve identity
  have hhost := Registry.host_resolve w r identity
  have hjoining := h.joining.add h.files identity
  rcases ScriptGroup.add_cases w r g identity with ⟨error, w', line, hresolve, heq⟩ |
    ⟨w', r', key, hresolve, hholds, heq⟩ | ⟨w', r', key, hresolve, hholds, -⟩
  · -- nothing has been loaded, so only the log goes on
    rw [hresolve] at hfiles hmodules hcallable hhost
    rw [heq] at hjoining ⊢
    exact ⟨attempts, hfiles, hmodules, hcallable, hjoining, h.others, h.serving, h.listed, h.done, by
      rw [Workspace.host_say, hhost]
      exact h.leads⟩
  · -- the script is in use by the group already, and is given up again
    rw [hresolve] at hfiles hmodules hcallable hhost
    rw [heq] at hjoining ⊢
    have hback := Registry.find?_resolve_release hresolve (h.serving key hholds)
    refine ⟨attempts, hfiles, hmodules, hcallable, hjoining, ?_, ?_, h.listed, ?_, ?_⟩
    · intro k hk
      rw [hback, h.others k hk]
    · intro k hk
      rw [Registry.standing?, hback]
      exact h.serving k hk
    · intro a ha
      exact (h.done a ha).of_find? (hback a.key)
    · rw [hhost]
      exact h.leads
  · obtain ⟨⟨s, hs, htaken⟩, -⟩ := Registry.taken_of_resolve hresolve
    exact ⟨_, h.attempt hresolve hholds hs htaken⟩

theorem addEach (h : Forming w₀ r₀ w r g attempts) (identities : List String) :
    ∃ attempts', Forming w₀ r₀ (g.addEach w r identities).1 (g.addEach w r identities).2.1
      (g.addEach w r identities).2.2 attempts' := by
  induction identities generalizing w r g attempts with
  | nil => exact ⟨attempts, h⟩
  | cons identity rest ih =>
    obtain ⟨attempts', hnext⟩ := h.add identity
    exact ih hnext

end Forming

/-! ## Section 5 - what loads

    Whether an identity loads is asked at the moment when the loop comes to it.  But as
    long as no source looks like a marker, it is decided before the loop begins. -/

/-- Whether the source that a path leads to can be read, and declares one type with a body that can be read. -/
def Workspace.Declares (w : Workspace η) (p : Path) : Prop :=
  ∃ source d, w.readSource p = .ok source ∧ Sole source d

/-- What can be read and compiled declares one type, and the other way round if it is plain. -/
theorem Workspace.loads_iff {w : Workspace η} (hreflects : w.context.bootstrap.1.compiler.Reflects) {p : Path}
    (hplain : ∀ source, w.readSource p = .ok source → Plain source) : w.Loads p ↔ w.Declares p := by
  constructor
  · rintro ⟨source, x, hread, hx⟩
    obtain ⟨d, hsole, -⟩ := w.context.sole_of_extract hreflects.unforged hx
    exact ⟨source, d, hread, hsole⟩
  · rintro ⟨source, d, hread, hsole⟩
    obtain ⟨x, hx⟩ := w.context.extract_of_sole hreflects (hplain source hread) hsole
    exact ⟨source, x, hread, hx⟩

/-- Whether a script is known, or some identities of a list lead to it by a source that declares one type. -/
def Registry.Within (w : Workspace η) (r : Registry) (identities : List String) (k : Path) : Prop :=
  r.knows k = true ∨
    ∃ identity ∈ identities, (r.keyOf w.files identity).Same k ∧ w.Declares (r.keyOf w.files identity)

theorem Registry.within_congr {w : Workspace η} {r : Registry} {identities : List String} {k key : Path}
    (h : k.Same key) : r.Within w identities k ↔ r.Within w identities key := by
  unfold Registry.Within
  rw [Registry.knows_congr h]
  simp only [same_iff_of_same h]

theorem Registry.within_snoc {w : Workspace η} {r : Registry} {identities : List String} {identity : String}
    {k : Path} : r.Within w (identities ++ [identity]) k ↔ r.Within w identities k ∨
      ((r.keyOf w.files identity).Same k ∧ w.Declares (r.keyOf w.files identity)) := by
  unfold Registry.Within
  simp only [List.mem_append, List.mem_singleton, or_and_right, exists_or, exists_eq_left, or_assoc]

/-- What is known after a script has been taken into use was known before, or is this script. -/
theorem Registry.knows_of_resolve {w w' : Workspace η} {r r' : Registry} {identity : String} {key : Path}
    (h : r.resolve w identity = (w', r', .ok key)) (k : Path) :
    r'.knows k = true ↔ r.knows k = true ∨ k.Same key := by
  unfold knows
  rw [standing?_resolve h]
  by_cases hsame : k.Same key <;> simp [hsame]

/-- What is known after one more identity was known before, or is its script. -/
theorem ScriptGroup.knows_add [Host η] (w : Workspace η) (r : Registry) (g : ScriptGroup) (identity : String)
    (k : Path) : (g.add w r identity).2.1.knows k = true ↔
      r.knows k = true ∨ (k.Same (r.keyOf w.files identity) ∧ (r.resolve w identity).2.2.isOk = true) := by
  rcases add_cases w r g identity with ⟨error, w', line, hresolve, heq⟩ | ⟨w', r', key, hresolve, -, heq⟩ |
    ⟨w', r', key, hresolve, -, heq⟩ <;> rw [hresolve, heq]
  · simp [Except.isOk, Except.toBool]
  · have hkey := (Registry.resolve_ok hresolve).2.2.1
    rw [Registry.knows_release, Registry.knows_of_resolve hresolve, same_iff_of_same hkey]
    simp [Except.isOk, Except.toBool]
  · have hkey := (Registry.resolve_ok hresolve).2.2.1
    rw [Registry.knows, standing?_attach, ← Registry.knows, Registry.knows_of_resolve hresolve, same_iff_of_same hkey]
    simp [Except.isOk, Except.toBool]

namespace Forming
variable [Host η] {w₀ w : Workspace η} {r₀ r : Registry} {g : ScriptGroup} {attempts : List (Attempt η)}

/-- A group under way finds out of the next identity what was to be told from the identities before the loop began. -/
theorem isOk_resolve_iff (h : Forming w₀ r₀ w r g attempts) (hreflects : w₀.context.bootstrap.1.compiler.Reflects)
    {before : List String} (hbefore : ∀ k, r.knows k = true ↔ r₀.Within w₀ before k) {identity : String}
    (hplain : ∀ source, w₀.readSource (r₀.keyOf w₀.files identity) = .ok source → Plain source) :
    (r.resolve w identity).2.2.isOk = true ↔
      r₀.Within w₀ (before ++ [identity]) (r₀.keyOf w₀.files identity) := by
  have hnow : w.context.bootstrap.1.compiler.Reflects := (Compiler.reflects_congr h.callable).2 hreflects
  have hread : ∀ p, w.readSource p = w₀.readSource p := Workspace.readSource_congr h.files
  have hkey : r.keyOf w.files identity = r₀.keyOf w₀.files identity :=
    Registry.keyOf_congr h.joining.setting h.files identity
  have hplain' : ∀ source, w.readSource (r₀.keyOf w₀.files identity) = .ok source → Plain source := by
    intro source hsource
    exact hplain source ((hread _).symm.trans hsource)
  have hdeclares : w.Declares (r₀.keyOf w₀.files identity) ↔ w₀.Declares (r₀.keyOf w₀.files identity) := by
    unfold Workspace.Declares
    rw [hread]
  rw [Registry.isOk_resolve_iff, hkey, hbefore, Workspace.loads_iff hnow hplain', hdeclares, Registry.within_snoc,
    and_iff_right (Path.Same.refl _)]

/-- So each trial is decided by the identities up to its own. -/
theorem trials_told (h : Forming w₀ r₀ w r g attempts) (hreflects : w₀.context.bootstrap.1.compiler.Reflects)
    {before identities : List String} (hbefore : ∀ k, r.knows k = true ↔ r₀.Within w₀ before k)
    (hplain : ∀ identity ∈ identities, ∀ source,
      w₀.readSource (r₀.keyOf w₀.files identity) = .ok source → Plain source)
    {n : Nat} {identity : String} {loads : Bool}
    (hn : (g.trials w r identities)[n]? = some (identity, loads)) :
    loads = true ↔ r₀.Within w₀ (before ++ identities.take (n + 1)) (r₀.keyOf w₀.files identity) := by
  induction identities generalizing w r g attempts before n with
  | nil => simp [ScriptGroup.trials] at hn
  | cons first rest ih =>
    have hok := h.isOk_resolve_iff hreflects hbefore (hplain first List.mem_cons_self)
    cases n with
    | zero =>
      obtain ⟨rfl, rfl⟩ : first = identity ∧ (r.resolve w first).2.2.isOk = loads := by
        simpa [ScriptGroup.trials] using hn
      simpa using hok
    | succ n =>
      obtain ⟨attempts', hnext⟩ := h.add first
      have hkey : r.keyOf w.files first = r₀.keyOf w₀.files first :=
        Registry.keyOf_congr h.joining.setting h.files first
      have hbefore' : ∀ k, (g.add w r first).2.1.knows k = true ↔ r₀.Within w₀ (before ++ [first]) k := by
        intro k
        rw [ScriptGroup.knows_add, hkey, hok, hbefore, Registry.within_snoc, Registry.within_snoc]
        constructor
        · rintro (hknown | ⟨hsame, hknown | ⟨-, hdeclares⟩⟩)
          · exact .inl hknown
          · exact .inl ((Registry.within_congr hsame).2 hknown)
          · exact .inr ⟨hsame.symm, hdeclares⟩
        · rintro (hknown | ⟨hsame, hdeclares⟩)
          · exact .inl hknown
          · exact .inr ⟨hsame.symm, .inr ⟨Path.Same.refl _, hdeclares⟩⟩
      have hrest := ih hnext hbefore' (fun i hi => hplain i (List.mem_cons_of_mem first hi)) (n := n) hn
      rwa [List.append_assoc, List.singleton_append] at hrest

end Forming

end HotReload
