import HotReload.Proofs.Script.Footing
import HotReload.Script.Group

/-! # The entries of a registry

    A registry is a list of entries, and everything it does to the list goes by the keys
    of the entries.  What it does is told here by the entry that is found under each
    key.

    Two views of an entry are kept apart.  Its *standing* is how many users it has and
    whether it is out of service: only taking a script into use and giving it up change
    it.  What a script *carries* through all that is its code, its path and its signal:
    only a poll, a request and a notice of a change touch them. -/

namespace HotReload

variable {η : Type}

/-- What is the same as one of two paths is the same as the other, if they are the same. -/
theorem same_iff_of_same {p q : Path} (h : p.Same q) (k : Path) : k.Same p ↔ k.Same q :=
  ⟨fun hk => hk.trans h, fun hk => hk.trans h.symm⟩

namespace Registry

/-! ## Section 1 - finding entries -/

/-- The settings of a registry, which never change. -/
def setting (r : Registry) : Path × String × ScriptOptions := (r.root, r.extension, r.options)

/-- Which key an identity has is decided by the settings and by the files. -/
theorem keyOf_congr {r r' : Registry} {f f' : Files} (hr : r'.setting = r.setting) (hf : f' = f)
    (identity : String) : r'.keyOf f' identity = r.keyOf f identity := by
  have hroot : r'.root = r.root := congrArg Prod.fst hr
  have hextension : r'.extension = r.extension := congrArg (fun p => p.2.1) hr
  unfold keyOf resolvePath lacksExtension
  rw [hroot, hextension, hf]

section lookups
variable {r : Registry} {k key : Path}

theorem find?_congr (r : Registry) (h : k.Same key) : r.find? k = r.find? key := by
  unfold find?
  congr 1
  funext e
  exact decide_eq_decide.2 (same_iff_of_same h _)

theorem key_of_find? {e : RegistryEntry} (h : r.find? k = some e) : e.key.Same k := by
  simpa using List.find?_some h

theorem mem_of_find? {e : RegistryEntry} (h : r.find? k = some e) : e ∈ r.entries :=
  List.mem_of_find?_eq_some h

/-- A change of all entries that keeps their keys. -/
theorem find?_map {f : RegistryEntry → RegistryEntry} (hkey : ∀ e, (f e).key = e.key) (k : Path) :
    find? { r with entries := r.entries.map f } k = (r.find? k).map f := by
  unfold find?
  rw [List.find?_map]
  congr 2
  funext e
  simp [hkey]

theorem find?_modify {f : RegistryEntry → RegistryEntry} (hkey : ∀ e, (f e).key = e.key) (k key : Path) :
    (r.modify key f).find? k = (r.find? k).map fun e => if k.Same key then f e else e := by
  unfold modify
  rw [find?_map (fun e => by split <;> simp [hkey])]
  cases h : r.find? k with
  | none => rfl
  | some e =>
    -- the entry that is found has the key that was looked for
    have hsame : e.key.Same key ↔ k.Same key :=
      ⟨fun he => (key_of_find? h).symm.trans he, fun hk => (key_of_find? h).trans hk⟩
    simp [hsame]

/-- What is done to the entry that has been found under a key is all that matters. -/
theorem find?_modify_of_find? {e : RegistryEntry} (he : r.find? key = some e)
    {f g : RegistryEntry → RegistryEntry} (hkey : ∀ e, (f e).key = e.key) (hg : f e = g e) (k : Path) :
    (r.modify key f).find? k = (r.find? k).map fun e => if k.Same key then g e else e := by
  rw [find?_modify hkey]
  cases hk : r.find? k with
  | none => rfl
  | some e' =>
    by_cases hsame : k.Same key
    · rw [find?_congr r hsame, he] at hk
      cases hk
      simp [hsame, hg]
    · simp [hsame]

/-- A new entry at the end. -/
theorem find?_add (r : Registry) (e : RegistryEntry) (k : Path) :
    find? { r with entries := r.entries ++ [e] } k =
      (r.find? k).or (if e.key.Same k then some e else none) := by
  unfold find?
  rw [List.find?_append]
  congr 1
  by_cases h : e.key.Same k <;> simp [h]

theorem script?_eq_some {s : Script} : r.script? k = some s ↔ ∃ e, r.find? k = some e ∧ e.script = s := by
  simp [script?]

end lookups

end Registry

/-! ## Section 2 - what an entry carries -/

namespace Script

/-- Out of service a script is not watched. -/
def Quiet (s : Script) : Prop := s.discarded = true → s.watch = none

/-- What a script carries on when nothing has been noticed, requested or polled. -/
structure Carries (s s' : Script) : Prop where
  code : s'.code = s.code
  path : s'.path = s.path
  signal : s'.signal = s.signal
  quiet : s.Quiet → s'.Quiet

namespace Carries
variable {s s' s'' : Script}

theorem refl (s : Script) : s.Carries s := ⟨rfl, rfl, rfl, id⟩

theorem trans (h : s.Carries s') (h' : s'.Carries s'') : s.Carries s'' where
  code := h'.code.trans h.code
  path := h'.path.trans h.path
  signal := h'.signal.trans h.signal
  quiet := h'.quiet ∘ h.quiet

end Carries

theorem Frame.carries {w w' : Workspace η} {s s' : Script} (h : Frame w w' s s') : s.Carries s' where
  code := h.code
  path := path_of_footing h.footing
  signal := signal_of_footing h.footing
  quiet := by
    have hwatch : s'.watch = s.watch := congrArg Footing.watch h.footing
    unfold Quiet
    rw [hwatch, discarded_of_footing h.footing]
    exact id

theorem carries_discard (s : Script) : s.Carries s.discard where
  code := code_discard s
  path := path_discard s
  signal := signal_discard s
  quiet := by
    unfold discard
    split
    · exact id
    · exact fun _ _ => rfl

theorem carries_resume (w : Workspace η) (s : Script) : s.Carries (resume w s).2 := by
  obtain ⟨-, hcode, hpath, hsignal, hservice⟩ := resume_frame w s
  refine ⟨hcode, hpath, hsignal, ?_⟩
  intro _ hd
  rw [hservice] at hd
  cases hd

end Script

namespace RegistryEntry

/-- How many users an entry has, and whether it is out of service. -/
def standing (e : RegistryEntry) : Nat × Bool := (e.users, e.script.discarded)

/-- An entry with one user more, and in service. -/
def taken (w : Workspace η) (e : RegistryEntry) : RegistryEntry :=
  { e with script := (e.script.resume w).2, users := e.users + 1 }

/-- An entry with one user less, and out of service without any. -/
def released (e : RegistryEntry) : RegistryEntry :=
  if e.users - 1 > 0 then { e with users := e.users - 1 }
  else { e with users := e.users - 1, script := e.script.discard }

@[simp] theorem standing_taken (w : Workspace η) (e : RegistryEntry) :
    (e.taken w).standing = (e.users + 1, false) := by
  obtain ⟨-, -, -, -, hservice⟩ := Script.resume_frame w e.script
  exact Prod.ext rfl hservice

theorem standing_released (e : RegistryEntry) :
    e.released.standing = (e.users - 1, if e.users - 1 > 0 then e.script.discarded else true) := by
  unfold released
  split
  · rfl
  · exact Prod.ext rfl (Script.discarded_discard e.script)

theorem carries_released (e : RegistryEntry) : e.script.Carries e.released.script := by
  unfold released
  split
  · exact .refl _
  · exact Script.carries_discard e.script

end RegistryEntry

namespace Registry

/-- The standing of the entry that is found under a key. -/
def standing? (r : Registry) (k : Path) : Option (Nat × Bool) := (r.find? k).map RegistryEntry.standing

/-- How many users the script of a key has. -/
def usersAt (r : Registry) (k : Path) : Nat := ((r.standing? k).map Prod.fst).getD 0

/-- From one registry to another, every entry that is known carries on. -/
def Carries (r r' : Registry) : Prop :=
  ∀ k e, r.find? k = some e → ∃ e', r'.find? k = some e' ∧ e.script.Carries e'.script

namespace Carries
variable {r r' r'' : Registry}

theorem refl (r : Registry) : r.Carries r := fun _ e h => ⟨e, h, .refl _⟩

theorem trans (h : r.Carries r') (h' : r'.Carries r'') : r.Carries r'' := by
  intro k e he
  obtain ⟨e', he', hcarries⟩ := h k e he
  obtain ⟨e'', he'', hcarries'⟩ := h' k e' he'
  exact ⟨e'', he'', hcarries.trans hcarries'⟩

/-- It is enough that every entry is mapped to one that carries on. -/
theorem of_find? {f : Path → RegistryEntry → RegistryEntry}
    (hfind : ∀ k, r'.find? k = (r.find? k).map (f k))
    (hcarries : ∀ k e, r.find? k = some e → e.script.Carries (f k e).script) : r.Carries r' := by
  intro k e he
  exact ⟨f k e, by rw [hfind, he]; rfl, hcarries k e he⟩

end Carries

/-! ## Section 3 - taking scripts into use, and giving them up -/

section uses
variable {r r' : Registry} {w w' : Workspace η} {identity : String}

/-- A script that is taken into use is there already, or it is loaded and comes last. -/
theorem resolve_ok {key : Path} (h : r.resolve w identity = (w', r', .ok key)) :
    w'.files = w.files ∧ r'.setting = r.setting ∧ key.Same (r.keyOf w.files identity) ∧
      ((∃ e, r.find? key = some e ∧
          ∀ k, r'.find? k = (r.find? k).map fun e => if k.Same key then e.taken w else e) ∨
        (∃ e : RegistryEntry, r.find? key = none ∧ e.key = key ∧ e.standing = (1, false) ∧
          ∀ k, r'.find? k = (r.find? k).or (if key.Same k then some e else none))) := by
  unfold resolve at h
  dsimp only at h
  cases hfind : r.find? (r.keyOf w.files identity) with
  | some e =>
    rw [hfind] at h
    dsimp only at h
    cases h
    have hkey := key_of_find? hfind
    refine ⟨(Script.resume_frame w e.script).1, rfl, hkey, .inl ⟨e, ?_, fun k => ?_⟩⟩
    · rw [find?_congr r hkey, hfind]
    · -- the key that is handed back is the one that was looked for
      simp only [same_iff_of_same hkey]
      exact find?_modify_of_find? (g := RegistryEntry.taken w) hfind (by intro; rfl) (by rfl) k
  | none =>
    rw [hfind] at h
    dsimp only at h
    cases hload : Script.load w identity (r.keyOf w.files identity) r.options with
    | mk w₁ result =>
      rw [hload] at h
      cases result with
      | error error => cases h
      | ok s =>
        cases h
        obtain ⟨text, extracted, -, -, -, hfooting, hfiles⟩ := Script.load_ok hload
        have hservice : s.discarded = false := congrArg Script.Footing.discarded hfooting
        refine ⟨hfiles, rfl, rfl, .inr ⟨⟨r.keyOf w.files identity, identity, s, 1⟩, hfind, rfl,
          Prod.ext rfl hservice, fun k => ?_⟩⟩
        exact find?_add r _ k

theorem resolve_error {error : ScriptError} (h : r.resolve w identity = (w', r', .error error)) :
    w'.files = w.files ∧ r' = r := by
  unfold resolve at h
  dsimp only at h
  cases hfind : r.find? (r.keyOf w.files identity) with
  | some e =>
    rw [hfind] at h
    cases h
  | none =>
    rw [hfind] at h
    dsimp only at h
    have hfiles := Script.files_load w identity (r.keyOf w.files identity) r.options
    cases hload : Script.load w identity (r.keyOf w.files identity) r.options with
    | mk w₁ result =>
      rw [hload] at h hfiles
      cases result with
      | error error =>
        cases h
        exact ⟨hfiles, rfl⟩
      | ok s => cases h

/-- A script that is there already is taken into use at any rate. -/
theorem resolve_known {e : RegistryEntry} (h : r.find? (r.keyOf w.files identity) = some e) :
    ∃ w' r', r.resolve w identity = (w', r', .ok e.key) := by
  unfold resolve
  dsimp only
  rw [h]
  exact ⟨_, _, rfl⟩

/-- A script that is new is there afterwards if its source can be read and compiled. -/
theorem resolve_new {key : Path} {source : String} {extracted : Extracted}
    (hkey : r.keyOf w.files identity = key) (hfind : r.find? key = none)
    (hread : w.readSource key = .ok source) (hx : (w.extract source).2 = .ok extracted) :
    ∃ w' s, r.resolve w identity =
        (w', { r with entries := r.entries ++ [{ key, identity, script := s }] }, .ok key) ∧
      s.code = (some extracted.behaviour, some source) ∧
      s.footing = ⟨identity, key, r.options, {}, s.watch, false⟩ := by
  obtain ⟨w', s, hload⟩ := Script.load_of_extract hread hx identity r.options
  obtain ⟨text, extracted', htext, hx', hcode, hfooting, -⟩ := Script.load_ok hload
  obtain rfl : source = text := Except.ok.inj (hread.symm.trans htext)
  obtain rfl : extracted = extracted' := Except.ok.inj (hx.symm.trans hx')
  refine ⟨w', s, ?_, hcode, hfooting⟩
  unfold resolve
  dsimp only
  rw [hkey, hfind]
  dsimp only
  rw [hload]

/-- Giving a script up releases its entry. -/
theorem find?_release (r : Registry) (f : Files) (identity : String) (k : Path) :
    (r.release f identity).1.find? k =
      (r.find? k).map fun e => if k.Same (r.keyOf f identity) then e.released else e := by
  unfold release
  dsimp only
  cases hfind : r.find? (r.keyOf f identity) with
  | none =>
    dsimp only
    cases hk : r.find? k with
    | none => rfl
    | some e =>
      have hother : ¬ k.Same (r.keyOf f identity) := by
        intro hsame
        rw [find?_congr r hsame, hfind] at hk
        cases hk
      simp [hother]
  | some e =>
    dsimp only
    by_cases hlast : e.users - 1 > 0
    · rw [if_pos hlast]
      exact find?_modify_of_find? (g := RegistryEntry.released) hfind (by intro; rfl)
        (by simp [RegistryEntry.released, hlast]) k
    · rw [if_neg hlast]
      exact find?_modify_of_find? (g := RegistryEntry.released) hfind (by intro; rfl)
        (by simp [RegistryEntry.released, hlast]) k

theorem setting_release (r : Registry) (f : Files) (identity : String) :
    (r.release f identity).1.setting = r.setting := by
  unfold release
  dsimp only
  split
  · rfl
  · split <;> rfl

/-- The script of an identity that is taken into use has one user more, and is in service. -/
theorem standing?_resolve {key : Path} (h : r.resolve w identity = (w', r', .ok key)) (k : Path) :
    r'.standing? k = if k.Same key then some (r.usersAt k + 1, false) else r.standing? k := by
  obtain ⟨-, -, -, ⟨e, he, hfind⟩ | ⟨e, hnone, hkey, hstanding, hfind⟩⟩ := resolve_ok h
  · unfold usersAt standing?
    rw [hfind k]
    by_cases hsame : k.Same key
    · rw [find?_congr r hsame, he]
      simp only [Option.map_some, hsame, if_true, RegistryEntry.standing_taken]
      rfl
    · cases r.find? k <;> simp [hsame]
  · unfold usersAt standing?
    rw [hfind k]
    by_cases hsame : k.Same key
    · rw [find?_congr r hsame, hnone]
      simp [hsame, hsame.symm, hstanding]
    · have hother : ¬ key.Same k := fun hk => hsame hk.symm
      cases r.find? k <;> simp [hsame, hother]

/-- The script of an identity that is given up has one user less, and without any it is out of
    service. -/
theorem standing?_release (r : Registry) (f : Files) (identity : String) (k : Path) :
    (r.release f identity).1.standing? k =
      if k.Same (r.keyOf f identity) then
        (r.standing? k).map fun s => (s.1 - 1, if s.1 - 1 > 0 then s.2 else true)
      else r.standing? k := by
  unfold standing?
  rw [find?_release]
  by_cases hsame : k.Same (r.keyOf f identity)
  · cases r.find? k with
    | none => simp [hsame]
    | some e =>
      simp only [Option.map_some, hsame, if_true, RegistryEntry.standing_released]
      rfl
  · simp [hsame]

theorem carries_resolve (w : Workspace η) (r : Registry) (identity : String) :
    r.Carries (r.resolve w identity).2.1 := by
  cases h : r.resolve w identity with
  | mk w' rest =>
    obtain ⟨r', result⟩ := rest
    cases result with
    | error error =>
      obtain ⟨-, rfl⟩ := resolve_error h
      exact .refl _
    | ok key =>
      obtain ⟨-, -, -, ⟨e, he, hfind⟩ | ⟨e, hnone, hkey, -, hfind⟩⟩ := resolve_ok h
      · refine .of_find? hfind fun k e he => ?_
        split
        · exact Script.carries_resume w e.script
        · exact .refl _
      · intro k e' he'
        exact ⟨e', by rw [hfind, he']; rfl, .refl _⟩

theorem files_resolve (w : Workspace η) (r : Registry) (identity : String) :
    (r.resolve w identity).1.files = w.files := by
  cases h : r.resolve w identity with
  | mk w' rest =>
    obtain ⟨r', result⟩ := rest
    cases result with
    | ok key => exact (resolve_ok h).1
    | error error => exact (resolve_error h).1

/-- Taking a script into use asks nothing of a host. -/
theorem host_resolve (w : Workspace η) (r : Registry) (identity : String) :
    (r.resolve w identity).1.host = w.host := by
  unfold resolve
  dsimp only
  cases r.find? (r.keyOf w.files identity) with
  | some e => exact (Script.resume_fields w e.script).1
  | none =>
    have hhost := Script.host_load w identity (r.keyOf w.files identity) r.options
    dsimp only
    cases hload : Script.load w identity (r.keyOf w.files identity) r.options with
    | mk w' result =>
      rw [hload] at hhost
      cases result <;> exact hhost

theorem setting_resolve (w : Workspace η) (r : Registry) (identity : String) :
    (r.resolve w identity).2.1.setting = r.setting := by
  cases h : r.resolve w identity with
  | mk w' rest =>
    obtain ⟨r', result⟩ := rest
    cases result with
    | ok key => exact (resolve_ok h).2.1
    | error error =>
      obtain ⟨-, rfl⟩ := resolve_error h
      rfl

theorem carries_release (r : Registry) (f : Files) (identity : String) :
    r.Carries (r.release f identity).1 := by
  refine .of_find? (find?_release r f identity) fun k e he => ?_
  split
  · exact e.carries_released
  · exact .refl _

end uses

/-! ## Section 4 - visiting scripts -/

section visits
variable {α : Type} {w : Workspace η} {f : Workspace η → Script → Workspace η × Script × α}

/-- A visit has an effect on one script, if there is such a script. -/
theorem visit_cases (w : Workspace η) (r : Registry) (key : Path)
    (f : Workspace η → Script → Workspace η × Script × α) :
    (r.script? key = none ∧ r.visit w key f = (w, r, none)) ∨
    (∃ s, r.script? key = some s ∧
      r.visit w key f = ((f w s).1, r.setScript key (f w s).2.1, some (f w s).2.2)) := by
  unfold visit
  cases r.script? key with
  | none => exact .inl ⟨rfl, rfl⟩
  | some s => exact .inr ⟨s, rfl, rfl⟩

theorem setting_visit (w : Workspace η) (r : Registry) (key : Path)
    (f : Workspace η → Script → Workspace η × Script × α) : (r.visit w key f).2.1.setting = r.setting := by
  rcases visit_cases w r key f with ⟨-, heq⟩ | ⟨s, -, heq⟩ <;> rw [heq]
  rfl

theorem files_visit (hf : ∀ s, (f w s).1.files = w.files) (r : Registry) (key : Path) :
    (r.visit w key f).1.files = w.files := by
  rcases visit_cases w r key f with ⟨-, heq⟩ | ⟨s, -, heq⟩ <;> rw [heq]
  exact hf s

theorem find?_visit (w : Workspace η) (r : Registry) (key : Path)
    (f : Workspace η → Script → Workspace η × Script × α) (k : Path) :
    (r.visit w key f).2.1.find? k =
      (r.find? k).map fun e => if k.Same key then { e with script := (f w e.script).2.1 } else e := by
  rcases visit_cases w r key f with ⟨hnone, heq⟩ | ⟨s, hs, heq⟩ <;> rw [heq]
  · cases hk : r.find? k with
    | none => rfl
    | some e =>
      have hother : ¬ k.Same key := by
        intro hsame
        rw [find?_congr r hsame] at hk
        simp [script?, hk] at hnone
      simp [hother]
  · obtain ⟨e, he, rfl⟩ := script?_eq_some.1 hs
    exact find?_modify_of_find? (g := fun e => { e with script := (f w e.script).2.1 }) he
      (by intro; rfl) (by rfl) k

theorem script?_visit (w : Workspace η) (r : Registry) (key : Path)
    (f : Workspace η → Script → Workspace η × Script × α) (k : Path) :
    (r.visit w key f).2.1.script? k =
      (r.script? k).map fun s => if k.Same key then (f w s).2.1 else s := by
  unfold script?
  rw [find?_visit]
  cases r.find? k with
  | none => rfl
  | some e => by_cases hsame : k.Same key <;> simp [hsame]

/-- A visit that leaves scripts in service, or out of service, leaves all entries in their standing. -/
theorem standing?_visit (hf : ∀ s, (f w s).2.1.discarded = s.discarded) (r : Registry) (key k : Path) :
    (r.visit w key f).2.1.standing? k = r.standing? k := by
  unfold standing?
  rw [find?_visit]
  cases r.find? k with
  | none => rfl
  | some e =>
    by_cases hsame : k.Same key
    · simp [hsame, RegistryEntry.standing, hf]
    · simp [hsame]

theorem standing?_visit_of_frame (hf : ∀ s, Script.Frame w (f w s).1 s (f w s).2.1) (r : Registry)
    (key k : Path) : (r.visit w key f).2.1.standing? k = r.standing? k :=
  standing?_visit (fun s => Script.discarded_of_footing (hf s).footing) r key k

theorem carries_visit (hf : ∀ s : Script, s.Carries (f w s).2.1) (r : Registry) (key : Path) :
    r.Carries (r.visit w key f).2.1 := by
  refine .of_find? (find?_visit w r key f) fun k e he => ?_
  split
  · exact hf e.script
  · exact .refl _

end visits

end Registry

/-! ## Section 5 - polls -/

namespace Script
variable [Host η]

/-- An update changes no file, moves no script, and takes none out of service. -/
theorem update_fields (w : Workspace η) (s : Script) :
    (update w s).1.files = w.files ∧ (update w s).2.1.path = s.path ∧
      (update w s).2.1.discarded = s.discarded ∧
      ((update w s).2.1.discarded = true ∨ (update w s).2.1.signal.raised = false) := by
  rcases update_cases w s with ⟨-, -, heq⟩ | ⟨hidle, heq⟩ <;> rw [heq]
  · obtain ⟨hfiles, hfooting, -⟩ := recompile_fields w s.answered
    have hpath := path_of_footing hfooting
    have hservice := discarded_of_footing hfooting
    have hsignal := signal_of_footing hfooting
    exact ⟨hfiles, hpath, hservice, .inr (congrArg Signal.raised hsignal)⟩
  · exact ⟨rfl, rfl, rfl, hidle⟩

theorem update_of_idle {s : Script} (h : s.discarded = true ∨ s.signal.raised = false) (w : Workspace η) :
    update w s = (w, s, false) := by
  rcases update_cases w s with ⟨hd, hr, -⟩ | ⟨-, heq⟩
  · rcases h with h | h
    · rw [hd] at h
      cases h
    · rw [hr] at h
      cases h
  · exact heq

end Script

namespace Registry

section polls
variable [Host η] {k : Path}

theorem updateEach_cons (w : Workspace η) (r : Registry) (key : Path) (keys : List Path) :
    r.updateEach w (key :: keys) =
      let first := r.update w key
      let rest := first.2.1.updateEach first.1 keys
      (rest.1, rest.2.1, if first.2.2 then rest.2.2 + 1 else rest.2.2) :=
  rfl

theorem setting_updateEach (w : Workspace η) (r : Registry) (keys : List Path) :
    (r.updateEach w keys).2.1.setting = r.setting := by
  induction keys generalizing w r with
  | nil => rfl
  | cons key keys ih => exact (ih _ _).trans (setting_visit w r key Script.update)

theorem files_updateEach (w : Workspace η) (r : Registry) (keys : List Path) :
    (r.updateEach w keys).1.files = w.files := by
  induction keys generalizing w r with
  | nil => rfl
  | cons key keys ih =>
    have hfiles : (r.visit w key Script.update).1.files = w.files :=
      files_visit (fun s => (Script.update_fields w s).1) r key
    exact (ih _ _).trans hfiles

theorem standing?_updateEach (w : Workspace η) (r : Registry) (keys : List Path) (k : Path) :
    (r.updateEach w keys).2.1.standing? k = r.standing? k := by
  induction keys generalizing w r with
  | nil => rfl
  | cons key keys ih =>
    have hstanding : (r.visit w key Script.update).2.1.standing? k = r.standing? k :=
      standing?_visit (fun s => (Script.update_fields w s).2.2.1) r key k
    exact (ih _ _).trans hstanding

/-- The workspace in which a poll comes to the script of a key. -/
def workspaceAt (w : Workspace η) (r : Registry) (keys : List Path) (k : Path) : Workspace η :=
  (r.updateEach w (keys.takeWhile fun key => !decide (k.Same key))).1

/-- A script with nothing to answer is not touched by a poll. -/
theorem script?_updateEach_of_idle {r : Registry} {s : Script} (hs : r.script? k = some s)
    (hidle : s.discarded = true ∨ s.signal.raised = false) (w : Workspace η) (keys : List Path) :
    (r.updateEach w keys).2.1.script? k = some s := by
  induction keys generalizing w r with
  | nil => exact hs
  | cons key keys ih =>
    refine ih (r := (r.visit w key Script.update).2.1) ?_ _
    rw [script?_visit, hs]
    simp [Script.update_of_idle hidle]

/-- A poll updates every script whose key is in the list, once, when it first comes to it. -/
theorem script?_updateEach {r : Registry} {s : Script} (hs : r.script? k = some s) (w : Workspace η)
    (keys : List Path) (hk : ∃ key ∈ keys, k.Same key) :
    (r.updateEach w keys).2.1.script? k = some (Script.update (r.workspaceAt w keys k) s).2.1 := by
  induction keys generalizing w r with
  | nil => simp at hk
  | cons key keys ih =>
    by_cases hsame : k.Same key
    · -- whatever comes later finds the signal taken
      obtain ⟨-, -, -, hidle⟩ := Script.update_fields w s
      have hfirst : (r.visit w key Script.update).2.1.script? k = some (Script.update w s).2.1 := by
        rw [script?_visit, hs]
        simp [hsame]
      have hat : r.workspaceAt w (key :: keys) k = w := by
        simp [workspaceAt, hsame, updateEach]
      rw [hat]
      exact script?_updateEach_of_idle hfirst hidle _ keys
    · have hrest : ∃ key ∈ keys, k.Same key := by
        obtain ⟨key', hmem, hk'⟩ := hk
        rcases List.mem_cons.1 hmem with rfl | hmem
        · exact absurd hk' hsame
        · exact ⟨key', hmem, hk'⟩
      have hfirst : (r.visit w key Script.update).2.1.script? k = some s := by
        rw [script?_visit, hs]
        simp [hsame]
      have hat : r.workspaceAt w (key :: keys) k =
          (r.visit w key Script.update).2.1.workspaceAt (r.visit w key Script.update).1 keys k := by
        simp [workspaceAt, hsame, updateEach, update]
      rw [hat]
      exact ih hfirst _ hrest

end polls

/-! ## Section 6 - notices, requests and events -/

section notices
variable {r : Registry}

theorem find?_notice (r : Registry) (f : Files) (touches : List Touch) (k : Path) :
    (r.notice f touches).find? k =
      (r.find? k).map fun e => { e with script := e.script.notice f touches } :=
  find?_map (by intro; rfl) k

theorem find?_drainEvents (r : Registry) (k : Path) :
    r.drainEvents.1.find? k = (r.find? k).map fun e => { e with script := e.script.drainEvents.1 } :=
  find?_map (by intro; rfl) k

theorem find?_requestReload (r : Registry) (f : Files) (identity : String) (k : Path) :
    (r.requestReload f identity).1.find? k = (r.find? k).map fun e =>
      if k.Same (r.keyOf f identity) then { e with script := e.script.requestReload } else e := by
  unfold requestReload lookup
  cases hfind : r.find? (r.keyOf f identity) with
  | none =>
    dsimp only
    cases hk : r.find? k with
    | none => rfl
    | some e =>
      have hother : ¬ k.Same (r.keyOf f identity) := by
        intro hsame
        rw [find?_congr r hsame, hfind] at hk
        cases hk
      simp [hother]
  | some entry =>
    dsimp only
    have hkey := key_of_find? hfind
    rw [find?_modify (by intro; rfl)]
    simp only [same_iff_of_same hkey]

/-- A change of the scripts alone that takes none out of service and brings none back. -/
theorem standing?_of_find? {r' : Registry} {f : Path → RegistryEntry → RegistryEntry}
    (hfind : ∀ k, r'.find? k = (r.find? k).map (f k)) (hf : ∀ k e, (f k e).standing = e.standing)
    (k : Path) : r'.standing? k = r.standing? k := by
  unfold standing?
  rw [hfind]
  cases r.find? k with
  | none => rfl
  | some e => simp [hf]

end notices

/-! ## Section 7 - one entry for every key -/

/-- The keys of the entries, in order. -/
def keys (r : Registry) : List Path := r.entries.map RegistryEntry.key

/-- No two entries have the same key. -/
def Distinct (r : Registry) : Prop := r.keys.Pairwise fun a b => ¬ a.Same b

/-- So every entry is found under its key. -/
theorem Distinct.find?_of_mem {r : Registry} (h : r.Distinct) {e : RegistryEntry} (he : e ∈ r.entries) :
    r.find? e.key = some e := by
  obtain ⟨front, back, hsplit⟩ := List.append_of_mem he
  unfold Distinct keys at h
  rw [hsplit, List.map_append, List.map_cons, List.pairwise_append] at h
  unfold find?
  rw [List.find?_eq_some_iff_append]
  refine ⟨decide_eq_true (Path.Same.refl e.key), front, back, hsplit, fun a ha => ?_⟩
  simpa using h.2.2 a.key (List.mem_map_of_mem ha) e.key List.mem_cons_self

theorem Distinct.of_keys {r r' : Registry} (h : r.Distinct) (hkeys : r'.keys = r.keys) :
    r'.Distinct := by
  unfold Distinct
  rw [hkeys]
  exact h

theorem keys_map {r : Registry} {f : RegistryEntry → RegistryEntry} (hkey : ∀ e, (f e).key = e.key) :
    keys { r with entries := r.entries.map f } = r.keys := by
  simp [keys, hkey]

theorem keys_modify {r : Registry} {f : RegistryEntry → RegistryEntry} (hkey : ∀ e, (f e).key = e.key)
    (key : Path) : (r.modify key f).keys = r.keys :=
  keys_map fun e => by split <;> simp [hkey]

theorem keys_release (r : Registry) (f : Files) (identity : String) :
    (r.release f identity).1.keys = r.keys := by
  unfold release
  dsimp only
  split
  · rfl
  · split <;> exact keys_modify (by intro; rfl) _

theorem keys_visit {α : Type} (w : Workspace η) (r : Registry) (key : Path)
    (f : Workspace η → Script → Workspace η × Script × α) : (r.visit w key f).2.1.keys = r.keys := by
  rcases visit_cases w r key f with ⟨-, heq⟩ | ⟨s, -, heq⟩ <;> rw [heq]
  exact keys_modify (by intro; rfl) key

theorem keys_updateEach [Host η] (w : Workspace η) (r : Registry) (keys : List Path) :
    (r.updateEach w keys).2.1.keys = r.keys := by
  induction keys generalizing w r with
  | nil => rfl
  | cons key keys ih => exact (ih _ _).trans (keys_visit w r key Script.update)

theorem keys_requestReload (r : Registry) (f : Files) (identity : String) :
    (r.requestReload f identity).1.keys = r.keys := by
  unfold requestReload
  split
  · exact keys_modify (by intro; rfl) _
  · rfl

/-- Only a script that is not there yet gets an entry of its own. -/
theorem Distinct.resolve {r : Registry} (h : r.Distinct) (w : Workspace η) (identity : String) :
    (r.resolve w identity).2.1.Distinct := by
  unfold Registry.resolve
  dsimp only
  cases hfind : r.find? (r.keyOf w.files identity) with
  | some e => exact h.of_keys (keys_modify (by intro; rfl) _)
  | none =>
    dsimp only
    cases Script.load w identity (r.keyOf w.files identity) r.options with
    | mk w' result =>
      cases result with
      | error error => exact h
      | ok s =>
        have hnew : ∀ e ∈ r.entries, ¬ e.key.Same (r.keyOf w.files identity) := by
          simpa [find?] using hfind
        unfold Distinct keys
        rw [List.map_append, List.pairwise_append]
        refine ⟨h, by simp, fun a ha b hb => ?_⟩
        obtain ⟨e, he, rfl⟩ := List.mem_map.1 ha
        obtain rfl : b = r.keyOf w.files identity := by simpa using hb
        exact hnew e he

end Registry

end HotReload
