import HotReload.Proofs.Registry.Identities
import HotReload.Proofs.Registry.Rosters
import HotReload.Proofs.Script.Chronicle

/-! # Polls, entry by entry

    A poll goes through a list of keys, and updates the script of each.  A script may come
    up in the list any number of times, since it may belong to several groups.  It is
    *called* if it comes up at all and has a change to answer at the beginning.

    The first turn of a script takes its signal, whatever the reload comes to, so the
    turns that follow find nothing to do.  And no turn touches another script.  So the
    poll reloads every called script once and leaves all others as they are, and the
    number that it hands back counts the called scripts, not the turns. -/

namespace HotReload

variable {η : Type}

/-! ## Section 1 - entries that are due -/

/-- Whether an event tells of a reload. -/
def Event.isReload : Event → Bool
  | recompiled .. | recompileFailed .. | recompileSkipped _ => true
  | compiled .. | attached .. | detached .. | discarded _ => false

/-- Every reload is told once, under the name of its script. -/
theorem Script.told_recompile [Host η] (w : Workspace η) (s : Script) : ∃ event : Event,
    event.isReload = true ∧ event.script = s.identity ∧ (recompile w s).2.1.events = s.events.push event := by
  rcases events_recompile w s with ⟨-, h⟩ | ⟨-, error, suspended, h⟩ |
    ⟨-, type, generation, reattached, elapsed, h⟩ <;> exact ⟨_, rfl, rfl, h⟩

namespace RegistryEntry

/-- The script of an entry is in service, and its signal is raised. -/
def isDue (e : RegistryEntry) : Bool := !e.script.discarded && e.script.signal.raised

/-- An entry is due, and one of the keys leads to it. -/
def isCalled (keys : List Path) (e : RegistryEntry) : Bool := e.isDue && keys.any fun key => e.key.Same key

theorem isCalled_cons_of_other {e : RegistryEntry} {key : Path} (h : ¬ e.key.Same key) (keys : List Path) :
    e.isCalled (key :: keys) = e.isCalled keys := by
  simp [isCalled, h]

theorem isCalled_cons_of_same {e : RegistryEntry} {key : Path} (h : e.key.Same key) (keys : List Path) :
    e.isCalled (key :: keys) = e.isDue := by
  simp [isCalled, h]

theorem isCalled_of_idle {e : RegistryEntry} (h : e.isDue = false) (keys : List Path) : e.isCalled keys = false := by
  simp [isCalled, h]

variable [Host η]

/-- An entry whose script has taken its signal and has been reloaded. -/
def reloaded (w : Workspace η) (e : RegistryEntry) : RegistryEntry :=
  { e with script := (e.script.answered.recompile w).2.1 }

/-- An entry whose script has had a turn. -/
def updated (w : Workspace η) (e : RegistryEntry) : RegistryEntry := { e with script := (e.script.update w).2.1 }

/-- A reload keeps a script in service, or out of service, and does not raise the signal. -/
theorem reloaded_fields (w : Workspace η) (e : RegistryEntry) :
    (e.reloaded w).script.discarded = e.script.discarded ∧ (e.reloaded w).script.signal.raised = false := by
  obtain ⟨-, hfooting, -⟩ := Script.recompile_fields w e.script.answered
  have hservice := Script.discarded_of_footing hfooting
  have hsignal := Script.signal_of_footing hfooting
  exact ⟨hservice, congrArg Signal.raised hsignal⟩

theorem isDue_reloaded (w : Workspace η) (e : RegistryEntry) : (e.reloaded w).isDue = false := by
  rw [isDue, (e.reloaded_fields w).2, Bool.and_false]

/-- A turn reloads a script that is due, and does nothing to any other. -/
theorem update_eq (w : Workspace η) (e : RegistryEntry) :
    e.updated w = (if e.isDue then e.reloaded w else e) ∧ (e.script.update w).2.2 = e.isDue := by
  unfold updated isDue
  rcases Script.update_cases w e.script with ⟨hd, hr, heq⟩ | ⟨hidle, heq⟩
  · rw [heq, hd, hr]
    exact ⟨rfl, rfl⟩
  · have hnot : (!e.script.discarded && e.script.signal.raised) = false := by
      rcases hidle with h | h <;> simp [h]
    rw [heq, hnot]
    exact ⟨rfl, rfl⟩

theorem isDue_updated (w : Workspace η) (e : RegistryEntry) : (e.updated w).isDue = false := by
  rw [(e.update_eq w).1]
  cases hdue : e.isDue with
  | true => exact e.isDue_reloaded w
  | false => exact hdue

end RegistryEntry

/-! ## Section 2 - turns -/

namespace Registry
variable [Host η] {r : Registry}

/-- A turn goes to one entry, or to none. -/
theorem update_split (h : r.Distinct) (w : Workspace η) (key : Path) :
    ((∀ e ∈ r.entries, ¬ e.key.Same key) ∧ r.update w key = (w, r, false)) ∨
    (∃ front e back, r.entries = front ++ e :: back ∧ e.key.Same key ∧
      (∀ b ∈ front ++ back, ¬ b.key.Same key) ∧
      (r.update w key).2.1.entries = front ++ e.updated w :: back ∧ (r.update w key).2.2 = e.isDue) := by
  cases hfind : r.find? key with
  | none =>
    refine .inl ⟨by simpa [find?] using hfind, ?_⟩
    simp [update, visit, script?, hfind]
  | some e =>
    obtain ⟨front, back, hsplit, hothers, hmodify⟩ := modify_split h hfind
    have hvisit : r.update w key =
        ((e.script.update w).1, r.setScript key (e.script.update w).2.1, (e.script.update w).2.2) := by
      simp [update, visit, script?, hfind]
    refine .inr ⟨front, e, back, hsplit, key_of_find? hfind, hothers, ?_, ?_⟩
    · rw [hvisit]
      exact hmodify _
    · rw [hvisit]
      exact (e.update_eq w).2

/-- What a poll makes of an entry: one that is called is reloaded when the poll first comes to it. -/
def polled (w : Workspace η) (r : Registry) (keys : List Path) (e : RegistryEntry) : RegistryEntry :=
  if e.isCalled keys then e.reloaded (r.workspaceAt w keys e.key) else e

section polled
variable {e : RegistryEntry} {key : Path}

theorem polled_of_idle (h : e.isDue = false) (w : Workspace η) (r : Registry) (keys : List Path) :
    r.polled w keys e = e := by
  rw [polled, e.isCalled_of_idle h, if_neg Bool.false_ne_true]

theorem polled_cons_of_same (h : e.key.Same key) (w : Workspace η) (r : Registry) (keys : List Path) :
    r.polled w (key :: keys) e = e.updated w := by
  have hat : r.workspaceAt w (key :: keys) e.key = w := by simp [workspaceAt, h, updateEach]
  rw [polled, e.isCalled_cons_of_same h, hat, (e.update_eq w).1]

theorem polled_cons_of_other (h : ¬ e.key.Same key) (w : Workspace η) (r : Registry) (keys : List Path) :
    r.polled w (key :: keys) e = (r.update w key).2.1.polled (r.update w key).1 keys e := by
  have hat : r.workspaceAt w (key :: keys) e.key =
      (r.update w key).2.1.workspaceAt (r.update w key).1 keys e.key := by
    simp [workspaceAt, h, updateEach]
  rw [polled, polled, e.isCalled_cons_of_other h, hat]

end polled

/-- A poll goes to the called entries once each, and counts them. -/
theorem updateEach_entries (h : r.Distinct) (w : Workspace η) (keys : List Path) :
    (r.updateEach w keys).2.1.entries = r.entries.map (r.polled w keys) ∧
      (r.updateEach w keys).2.2 = r.entries.countP fun e => e.isCalled keys := by
  induction keys generalizing w r with
  | nil =>
    have hnone : ∀ e : RegistryEntry, e.isCalled [] = false := fun e => Bool.and_false _
    have hsame : r.polled w [] = id := funext fun e => by rw [polled, hnone, if_neg Bool.false_ne_true, id]
    simp [updateEach, hsame, hnone]
  | cons key keys ih =>
    have hdistinct : (r.update w key).2.1.Distinct := h.of_keys (keys_visit w r key Script.update)
    obtain ⟨hentries, hcount⟩ := ih hdistinct (r.update w key).1
    rw [updateEach_cons]
    dsimp only
    rw [hentries, hcount]
    -- entries other than the one whose turn it is are dealt with by the rest of the list
    have hothers : ∀ l : List RegistryEntry, (∀ b ∈ l, ¬ b.key.Same key) →
        l.map ((r.update w key).2.1.polled (r.update w key).1 keys) = l.map (r.polled w (key :: keys)) ∧
          l.countP (fun b => b.isCalled keys) = l.countP fun b => b.isCalled (key :: keys) := by
      intro l hl
      refine ⟨List.map_congr_left fun b hb => (polled_cons_of_other (hl b hb) w r keys).symm,
        List.countP_congr fun b hb => ?_⟩
      rw [b.isCalled_cons_of_other (hl b hb)]
    rcases update_split h w key with ⟨hnone, heq⟩ | ⟨front, e, back, hsplit, hsame, hother, hentries', hran⟩
    · obtain ⟨hmap, hcalled⟩ := hothers r.entries hnone
      rw [heq] at hmap ⊢
      exact ⟨hmap, hcalled⟩
    · obtain ⟨hfront, hfront'⟩ := hothers front fun b hb => hother b (List.mem_append_left _ hb)
      obtain ⟨hback, hback'⟩ := hothers back fun b hb => hother b (List.mem_append_right _ hb)
      have hidle := e.isDue_updated w
      rw [hentries', hsplit, hran]
      simp only [List.map_append, List.map_cons, List.countP_append, List.countP_cons]
      rw [hfront, hback, hfront', hback', polled_of_idle hidle, polled_cons_of_same hsame,
        RegistryEntry.isCalled_of_idle hidle, e.isCalled_cons_of_same hsame]
      refine ⟨rfl, ?_⟩
      cases e.isDue <;> simp [Nat.add_assoc]

/-! ## Section 3 - what a poll answers -/

/-- From one registry to another, the entries that are owed an answer have got one, and their number is given.  The
    answer is a reload in the workspace that there is for the key of the entry. -/
structure Attends (places : Path → Workspace η) (owed : RegistryEntry → Bool) (r r' : Registry) (n : Nat) : Prop where
  /-- Whatever is owed nothing is as it was, its signal too. -/
  entries : r'.entries = r.entries.map fun e => if owed e then e.reloaded (places e.key) else e
  count : n = r.entries.countP owed
  /-- An answer is told once. -/
  told : ∀ e ∈ r.entries, owed e = true → ∃ event : Event, event.isReload = true ∧
    event.script = e.script.identity ∧ (e.reloaded (places e.key)).script.events = e.script.events.push event

namespace Attends
variable {places : Path → Workspace η} {owed owed' : RegistryEntry → Bool} {r' : Registry} {n : Nat}

/-- The signals that have not been answered are as they were. -/
theorem signals (h : r.Attends places owed r' n) : r'.entries.map (fun e => e.script.signal.raised) =
    r.entries.map fun e => e.script.signal.raised && !owed e := by
  rw [h.entries, List.map_map]
  refine List.map_congr_left fun e _ => ?_
  dsimp only [Function.comp]
  cases owed e with
  | true => simpa using (e.reloaded_fields (places e.key)).2
  | false => simp

/-- What is due afterwards was due before and has not been owed an answer. -/
theorem due (h : r.Attends places owed r' n) {e' : RegistryEntry} (he' : e' ∈ r'.entries)
    (hdue : e'.isDue = true) : ∃ e ∈ r.entries, e'.key = e.key ∧ e.isDue = true ∧ owed e = false := by
  rw [h.entries] at he'
  obtain ⟨e, he, rfl⟩ := List.mem_map.1 he'
  cases howed : owed e with
  | true =>
    rw [howed, if_pos rfl, e.isDue_reloaded] at hdue
    cases hdue
  | false =>
    rw [howed, if_neg Bool.false_ne_true] at hdue
    exact ⟨e, he, rfl, hdue, howed⟩

/-- It matters only for the entries of the registry what they are owed. -/
theorem congr (h : r.Attends places owed r' n) (howed : ∀ e ∈ r.entries, owed' e = owed e) :
    r.Attends places owed' r' n where
  entries := by
    rw [h.entries]
    exact List.map_congr_left fun e he => by rw [howed e he]
  count := by
    rw [h.count]
    exact List.countP_congr fun e he => by rw [howed e he]
  told := fun e he ho => h.told e he (howed e he ▸ ho)

end Attends

theorem attends_updateEach (h : r.Distinct) (w : Workspace η) (keys : List Path) :
    r.Attends (r.workspaceAt w keys) (RegistryEntry.isCalled keys) (r.updateEach w keys).2.1
      (r.updateEach w keys).2.2 where
  entries := (updateEach_entries h w keys).1
  count := (updateEach_entries h w keys).2
  told := fun e _ _ => Script.told_recompile (r.workspaceAt w keys e.key) e.script.answered

/-- A poll of all scripts comes to every entry. -/
theorem isCalled_sorted {e : RegistryEntry} (he : e ∈ r.entries) :
    e.isDue = e.isCalled (r.sorted.map RegistryEntry.key) := by
  have hkey : e.key ∈ r.sorted.map RegistryEntry.key := List.mem_map_of_mem (r.sorted_perm.mem_iff.2 he)
  have hany : (r.sorted.map RegistryEntry.key).any (fun key => decide (e.key.Same key)) = true :=
    List.any_eq_true.2 ⟨e.key, hkey, decide_eq_true (Path.Same.refl e.key)⟩
  rw [RegistryEntry.isCalled, hany, Bool.and_true]

/-- What it means that a poll of all scripts serves those that are due, and no others. -/
structure ServesAll (w : Workspace η) (r : Registry) : Prop where
  attends : r.Attends (r.workspaceAt w (r.sorted.map RegistryEntry.key)) RegistryEntry.isDue (r.pollAll w).2.1
    (r.pollAll w).2.2
  /-- Afterwards nothing is due any more, -/
  idle : ∀ e ∈ (r.pollAll w).2.1.entries, e.isDue = false
  /-- and all other signals are as they were. -/
  signals : (r.pollAll w).2.1.entries.map (fun e => e.script.signal.raised) =
    r.entries.map fun e => e.script.signal.raised && !e.isDue

theorem servesAll (h : r.Distinct) (w : Workspace η) : r.ServesAll w := by
  have hattends := (attends_updateEach h w (r.sorted.map RegistryEntry.key)).congr fun _ he => isCalled_sorted he
  refine ⟨hattends, fun e he => ?_, hattends.signals⟩
  rw [← Bool.not_eq_true]
  intro hdue
  obtain ⟨e', -, -, hdue', hnot⟩ := hattends.due he hdue
  rw [hdue'] at hnot
  cases hnot

omit [Host η] in
/-- Entries that keep their identities keep their order. -/
theorem sorted_map {r' : Registry} {f : RegistryEntry → RegistryEntry} (hentries : r'.entries = r.entries.map f)
    (hidentity : ∀ e, (f e).identity = e.identity) : r'.sorted = r.sorted.map f := by
  unfold sorted
  rw [hentries]
  refine (List.map_mergeSort fun a _ b _ => ?_).symm
  rw [hidentity, hidentity]

end Registry

end HotReload
