import HotReload.Proofs.Registry.RegistrySession
import HotReload.Proofs.Registry.Uses
import HotReload.Proofs.Script.Loading
import HotReload.Proofs.Lists

/-! # Identities

    The entries of a registry are told apart by their keys, which are places in the tree
    of files.  To the outside they are known by the identities that they were first
    resolved by: scripts are listed, polled and drained in the order of these.  How the
    entries happen to be kept makes no difference to any of that as long as no two of
    them report the same identity, and does make one as soon as two do.

    An identity is reported twice exactly if it has *strayed*: it is resolved once more
    after the files have changed, and leads to another source by then, which has no entry
    yet. -/

namespace HotReload

variable {η : Type}

/-! ## Section 1 - entries in another order -/

namespace Registry
variable {r r' : Registry}

/-- The identities that the entries report, in the order of the entries. -/
def reported (r : Registry) : List String := r.entries.map RegistryEntry.identity

/-- No two entries report the same identity. -/
def OneEach (r : Registry) : Prop := r.reported.Nodup

theorem reported_eq (r : Registry) : r.reported = r.labels.map Prod.snd := by
  simp [reported, labels, RegistryEntry.label]

theorem sorted_perm (r : Registry) : r.sorted.Perm r.entries := List.mergeSort_perm _ _

theorem oneEach_iff (r : Registry) : r.OneEach ↔ r.identities.Nodup :=
  ((r.sorted_perm.map RegistryEntry.identity).nodup_iff).symm

/-- Whether an entry may stand before another when the entries are sorted. -/
def comesBefore (a b : RegistryEntry) : Bool := decide (a.identity ≤ b.identity)

theorem comesBefore_trans (a b c : RegistryEntry) (hab : comesBefore a b = true) (hbc : comesBefore b c = true) :
    comesBefore a c = true :=
  decide_eq_true (String.le_trans (of_decide_eq_true hab) (of_decide_eq_true hbc))

theorem comesBefore_total (a b : RegistryEntry) : (comesBefore a b || comesBefore b a) = true := by
  simpa [comesBefore] using String.le_total a.identity b.identity

theorem sorted_pairwise (r : Registry) : r.sorted.Pairwise fun a b => comesBefore a b = true :=
  List.pairwise_mergeSort comesBefore_trans comesBefore_total r.entries

theorem Distinct.perm (h : r.Distinct) (hperm : r'.entries.Perm r.entries) : r'.Distinct :=
  ((hperm.map RegistryEntry.key).pairwise_iff fun hne hsame => hne hsame.symm).2 h

/-- What is found under a key is no matter of order. -/
theorem Distinct.find?_perm (h : r.Distinct) (hperm : r'.entries.Perm r.entries) (k : Path) :
    r'.find? k = r.find? k := by
  cases hk : r.find? k with
  | none =>
    unfold find? at hk ⊢
    rw [List.find?_eq_none] at hk ⊢
    exact fun e he => hk e (hperm.mem_iff.1 he)
  | some e =>
    have he : e ∈ r'.entries := hperm.mem_iff.2 (mem_of_find? hk)
    rw [← find?_congr r' (key_of_find? hk)]
    exact (h.perm hperm).find?_of_mem he

/-- Where identities tell the entries apart, there is one way to sort them. -/
theorem OneEach.sorted_eq (h : r.OneEach) (hperm : r'.entries.Perm r.entries) : r'.sorted = r.sorted := by
  have hsame : r'.sorted.Perm r.sorted := (r'.sorted_perm.trans hperm).trans r.sorted_perm.symm
  refine List.Perm.eq_of_pairwise ?_ r'.sorted_pairwise r.sorted_pairwise hsame
  intro a b ha hb hab hba
  have ha' : a ∈ r.entries := hperm.mem_iff.1 (r'.sorted_perm.mem_iff.1 ha)
  have hb' : b ∈ r.entries := r.sorted_perm.mem_iff.1 hb
  have hidentity : a.identity = b.identity :=
    String.le_antisymm (of_decide_eq_true hab) (of_decide_eq_true hba)
  exact List.inj_on_of_nodup_map h ha' hb' hidentity

/-- Where they do not, there are two. -/
theorem Distinct.oneEach_of_sorted (h : r.Distinct)
    (hsorted : ∀ entries : List RegistryEntry, entries.Perm r.entries → sorted { r with entries } = r.sorted) :
    r.OneEach := by
  have hentries : r.entries.Nodup := by
    refine List.Nodup.of_map RegistryEntry.key (List.Pairwise.imp ?_ h)
    rintro a _ hne rfl
    exact hne (Path.Same.refl a)
  unfold OneEach reported
  rw [List.nodup_map_iff_inj_on hentries]
  intro a ha b hb hidentity
  by_contra hne
  -- with the two in front, in one order and in the other, the sort keeps them in that order
  obtain ⟨front, back, hsplit⟩ := List.append_of_mem ha
  have hb' : b ∈ front ++ back := by
    have hmem : b ∈ a :: (front ++ back) := (hsplit ▸ List.perm_middle.mem_iff).1 hb
    exact (List.mem_cons.1 hmem).resolve_left fun heq => hne heq.symm
  obtain ⟨front', back', hsplit'⟩ := List.append_of_mem hb'
  have hperm : (a :: b :: (front' ++ back')).Perm r.entries := by
    rw [hsplit]
    exact ((List.perm_middle.symm.trans (hsplit' ▸ List.Perm.refl _)).cons a).trans List.perm_middle.symm
  have hkept : ∀ {x y : RegistryEntry} {rest : List RegistryEntry}, x.identity = y.identity →
      [x, y].Sublist (sorted { r with entries := x :: y :: rest }) := by
    intro x y rest heq
    have hle : comesBefore x y = true := by simp [comesBefore, heq]
    exact List.pair_sublist_mergeSort comesBefore_trans comesBefore_total hle
      (((List.nil_sublist rest).cons_cons y).cons_cons x)
  have hab : [a, b].Sublist r.sorted := hsorted _ hperm ▸ hkept hidentity
  have hba : [b, a].Sublist r.sorted := hsorted _ ((List.Perm.swap a b _).trans hperm) ▸ hkept hidentity.symm
  exact not_sublist_swap (r.sorted_perm.nodup_iff.2 hentries) hab hba

/-! ### Polls and events -/

/-- Registries of one setting in which the same is found under every key. -/
structure Alike (r r' : Registry) : Prop where
  setting : r'.setting = r.setting
  find? : ∀ k, r'.find? k = r.find? k

/-- A visit comes to the same in both of them. -/
theorem Alike.visit {α : Type} (h : Alike r r') (w : Workspace η) (key : Path)
    (f : Workspace η → Script → Workspace η × Script × α) :
    (r'.visit w key f).1 = (r.visit w key f).1 ∧ (r'.visit w key f).2.2 = (r.visit w key f).2.2 ∧
      Alike (r.visit w key f).2.1 (r'.visit w key f).2.1 := by
  have hscript : r'.script? key = r.script? key := congrArg (Option.map _) (h.find? key)
  have halike : Alike (r.visit w key f).2.1 (r'.visit w key f).2.1 := by
    refine ⟨?_, fun k => ?_⟩
    · rw [setting_visit, setting_visit, h.setting]
    · rw [find?_visit, find?_visit, h.find?]
  refine ⟨?_, ?_, halike⟩ <;>
  · rcases visit_cases w r key f with ⟨hnone, heq⟩ | ⟨s, hs, heq⟩ <;>
    rcases visit_cases w r' key f with ⟨hnone', heq'⟩ | ⟨s', hs', heq'⟩
    · rw [heq, heq']
    · simp [hscript, hnone] at hs'
    · simp [hscript, hs] at hnone'
    · rw [hscript, hs] at hs'
      cases hs'
      rw [heq, heq']

/-- So do polls of the same scripts in the same order. -/
theorem Alike.updateEach [Host η] (h : Alike r r') (w : Workspace η) (keys : List Path) :
    (r'.updateEach w keys).1 = (r.updateEach w keys).1 ∧ (r'.updateEach w keys).2.2 = (r.updateEach w keys).2.2 ∧
      Alike (r.updateEach w keys).2.1 (r'.updateEach w keys).2.1 := by
  induction keys generalizing w r r' with
  | nil => exact ⟨rfl, rfl, h⟩
  | cons key keys ih =>
    obtain ⟨hworkspace, hran, halike⟩ := h.visit w key Script.update
    obtain ⟨hworkspace', hcount, halike'⟩ := ih halike (r.visit w key Script.update).1
    simp only [Registry.updateEach, Registry.update, hworkspace, hran, hworkspace', hcount]
    exact ⟨trivial, rfl, halike'⟩

/-- Whatever the order in which the entries are kept, the scripts are polled in the same order, with the same outcome,
    and their events are taken in the same order. -/
structure Definite (η : Type) [Host η] (r : Registry) : Prop where
  sorted : ∀ entries : List RegistryEntry, entries.Perm r.entries → Registry.sorted { r with entries } = r.sorted
  events : ∀ entries : List RegistryEntry, entries.Perm r.entries →
    (drainEvents { r with entries }).2 = r.drainEvents.2
  polls : ∀ entries : List RegistryEntry, entries.Perm r.entries → ∀ w : Workspace η,
    (pollAll w { r with entries }).1 = (r.pollAll w).1 ∧ (pollAll w { r with entries }).2.2 = (r.pollAll w).2.2 ∧
      Alike (r.pollAll w).2.1 (pollAll w { r with entries }).2.1

/-- This is so exactly if no two entries report the same identity. -/
theorem Distinct.definite_iff [Host η] (h : r.Distinct) : r.Definite η ↔ r.OneEach := by
  refine ⟨fun hdefinite => h.oneEach_of_sorted hdefinite.sorted, fun hone => ⟨?_, ?_, ?_⟩⟩
  · intro entries hperm
    have hsorted : sorted { r with entries } = r.sorted := hone.sorted_eq hperm
    exact hsorted
  · intro entries hperm
    have hsorted : sorted { r with entries } = r.sorted := hone.sorted_eq hperm
    rw [drainEvents, drainEvents, hsorted]
  · intro entries hperm w
    have hsorted : sorted { r with entries } = r.sorted := hone.sorted_eq hperm
    have halike : Alike r { r with entries } := ⟨rfl, fun k => h.find?_perm hperm k⟩
    rw [pollAll, pollAll, hsorted]
    exact halike.updateEach w _

end Registry

/-! ## Section 2 - identities that stray -/

/-- Whether the source that a path leads to can be read and compiled. -/
def Workspace.Loads (w : Workspace η) (p : Path) : Prop :=
  ∃ text extracted, w.readSource p = .ok text ∧ (w.extract text).2 = .ok extracted

/-- The context that a load leaves behind is that of its compile. -/
theorem Script.context_load {w : Workspace η} {p : Path} {text : String} {extracted : Extracted}
    (hread : w.readSource p = .ok text) (hx : (w.extract text).2 = .ok extracted) (identity : String)
    (options : ScriptOptions) : (load w identity p options).1.context = (w.extract text).1.context := by
  cases hextract : w.extract text with
  | mk w' result =>
    rw [hextract] at hx
    obtain rfl : result = .ok extracted := hx
    simp only [load, hread, ofSource, hextract]
    exact (startWatch_fields _ _).2.1

namespace Registry

/-- A script that is new is loaded by one compile. -/
theorem resolve_of_new {w : Workspace η} {r : Registry} {identity text : String} {extracted : Extracted}
    (hnone : r.find? (r.keyOf w.files identity) = none)
    (hread : w.readSource (r.keyOf w.files identity) = .ok text) (hx : (w.extract text).2 = .ok extracted) :
    ∃ w' s, r.resolve w identity = (w', { r with
        entries := r.entries ++ [⟨r.keyOf w.files identity, identity, s, 1⟩] }, .ok (r.keyOf w.files identity)) ∧
      w'.context = (w.extract text).1.context := by
  obtain ⟨w', s, hload⟩ := Script.load_of_extract hread hx identity r.options
  have hcontext := Script.context_load hread hx identity r.options
  rw [hload] at hcontext
  refine ⟨w', s, ?_, hcontext⟩
  unfold resolve
  dsimp only
  rw [hnone]
  dsimp only
  rw [hload]

/-- A script is loaded if there is none for the source, and the source can be read and compiled. -/
theorem reported_resolve_of_new {w : Workspace η} {r : Registry} {identity : String}
    (hnone : r.lookup w.files identity = none) (hloads : w.Loads (r.keyOf w.files identity)) :
    (r.resolve w identity).2.1.reported = r.reported ++ [identity] := by
  obtain ⟨text, extracted, hread, hx⟩ := hloads
  obtain ⟨w', s, hresolve, -⟩ := resolve_of_new hnone hread hx
  rw [hresolve]
  exact List.map_append

/-- Otherwise no other identity is reported than before. -/
theorem reported_resolve_of_old {w : Workspace η} {r : Registry} {identity : String}
    (h : ¬ (r.lookup w.files identity = none ∧ w.Loads (r.keyOf w.files identity))) :
    (r.resolve w identity).2.1.reported = r.reported := by
  rw [reported_eq, reported_eq]
  unfold resolve
  dsimp only
  cases hfind : r.find? (r.keyOf w.files identity) with
  | some e => exact congrArg _ (labels_modify r (by intro; rfl) _)
  | none =>
    dsimp only
    cases hload : Script.load w identity (r.keyOf w.files identity) r.options with
    | mk w' result =>
      cases result with
      | error error => rfl
      | ok s =>
        obtain ⟨text, extracted, hread, hx, -⟩ := Script.load_ok hload
        exact absurd ⟨hfind, text, extracted, hread, hx⟩ h

end Registry

namespace RegistrySession

/-- Whether an identity that some entry reports leads to a source now that has no entry, and can be loaded. -/
def Strays (d : RegistrySession η) (identity : String) : Prop :=
  identity ∈ d.registry.reported ∧ d.registry.lookup d.workspace.files identity = none ∧
    d.workspace.Loads (d.keyOf identity)

section runs
variable [Host η] {d : RegistrySession η}

/-- Only taking a script into use brings in a label. -/
theorem labels_step (d : RegistrySession η) {e : RegistryOp η} (h : ∀ identity, e ≠ .resolve identity) :
    (d.step e).registry.labels = d.registry.labels := by
  cases e with
  | edit files touches => exact Registry.labels_map fun _ => rfl
  | others w => rfl
  | resolve identity => exact absurd rfl (h identity)
  | release identity => exact Registry.labels_release d.registry d.workspace.files identity
  | update key => exact Registry.labels_visit d.workspace d.registry key Script.update
  | poll => exact Registry.labels_updateEach d.workspace d.registry _
  | drain => exact Registry.labels_map fun _ => rfl
  | call key c hc =>
    rw [registry_call]
    exact Registry.labels_visit d.workspace d.registry key _

/-- An operation keeps the identities apart, unless it takes one into use that has strayed. -/
theorem oneEach_step_iff (h : d.registry.OneEach) (e : RegistryOp η) :
    (d.step e).registry.OneEach ↔ ∀ identity, e = .resolve identity → ¬ d.Strays identity := by
  by_cases hresolve : ∃ identity, e = .resolve identity
  · obtain ⟨identity, rfl⟩ := hresolve
    simp only [RegistryOp.resolve.injEq, forall_eq']
    have hstep : (d.step (.resolve identity)).registry = (d.registry.resolve d.workspace identity).2.1 := rfl
    unfold Registry.OneEach at h ⊢
    rw [hstep]
    by_cases hnew : d.registry.lookup d.workspace.files identity = none ∧ d.workspace.Loads (d.keyOf identity)
    · have hstrays : d.Strays identity ↔ identity ∈ d.registry.reported := and_iff_left hnew
      rw [Registry.reported_resolve_of_new hnew.1 hnew.2, hstrays, List.nodup_append]
      constructor
      · rintro ⟨-, -, hapart⟩ hmem
        exact hapart identity hmem identity List.mem_cons_self rfl
      · intro hfresh
        refine ⟨h, List.nodup_singleton _, fun a ha b hb hab => hfresh ?_⟩
        rwa [← List.mem_singleton.1 hb, ← hab]
    · rw [Registry.reported_resolve_of_old hnew]
      exact iff_of_true h fun hstrays => hnew hstrays.2
  · have hother : ∀ identity, e ≠ .resolve identity := fun identity heq => hresolve ⟨identity, heq⟩
    have hsame : (d.step e).registry.OneEach := by
      unfold Registry.OneEach at h ⊢
      rwa [Registry.reported_eq, d.labels_step hother, ← Registry.reported_eq]
    exact iff_of_true hsame fun identity heq => absurd heq (hother identity)

/-- They are kept apart all the way exactly if no identity has strayed when it is taken into use. -/
theorem oneEach_run_iff (h : d.registry.OneEach) {ops : List (RegistryOp η)} :
    (∀ before after, ops = before ++ after → (d.run before).registry.OneEach) ↔
      ∀ before identity after, ops = before ++ .resolve identity :: after → ¬ (d.run before).Strays identity := by
  induction ops generalizing d with
  | nil =>
    refine iff_of_true ?_ ?_
    · intro before after heq
      obtain ⟨rfl, rfl⟩ := List.append_eq_nil_iff.1 heq.symm
      exact h
    · intro before identity after heq
      cases before <;> cases heq
  | cons e rest ih =>
    have hstep := oneEach_step_iff h e
    constructor
    · intro hall before identity after heq
      have hnext : (d.step e).registry.OneEach := hall [e] rest rfl
      cases before with
      | nil =>
        cases heq
        exact hstep.1 hnext identity rfl
      | cons e' before =>
        cases heq
        refine (ih hnext).1 ?_ before identity after rfl
        exact fun before' after' heq' => hall (e :: before') after' (by rw [heq']; rfl)
    · intro hfaithful before after heq
      cases before with
      | nil => exact h
      | cons e' before =>
        cases heq
        have hnext : (d.step e).registry.OneEach :=
          hstep.2 fun identity heq' => hfaithful [] identity (before ++ after) (by rw [heq']; rfl)
        refine (ih hnext).2 ?_ before after rfl
        intro before' identity after' heq'
        exact hfaithful (e :: before') identity after' (by rw [heq']; rfl)

/-- The settings of the registry are the same all the time. -/
theorem setting_step (d : RegistrySession η) (e : RegistryOp η) : (d.step e).registry.setting = d.registry.setting := by
  cases e with
  | edit files touches => rfl
  | others w => rfl
  | resolve identity => exact Registry.setting_resolve d.workspace d.registry identity
  | release identity => exact Registry.setting_release d.registry d.workspace.files identity
  | update key => exact Registry.setting_visit d.workspace d.registry key Script.update
  | poll => exact Registry.setting_updateEach d.workspace d.registry _
  | drain => rfl
  | call key c hc =>
    rw [registry_call]
    exact Registry.setting_visit d.workspace d.registry key _

/-- No two identities are reported alike at any time, and the scripts are polled and drained in an order that the
    identities alone decide, exactly if no identity has strayed when it is taken into use. -/
theorem identities_nodup_iff (w : Workspace η) (r : Registry) (ops : List (RegistryOp η)) :
    (∀ before after, ops = before ++ after →
      ((opened w r).run before).registry.identities.Nodup ∧ ((opened w r).run before).registry.Definite η) ↔
      ∀ before identity after, ops = before ++ .resolve identity :: after →
        ¬ ((opened w r).run before).Strays identity := by
  have hopened : (opened w r).registry.OneEach := List.nodup_nil
  rw [← oneEach_run_iff hopened]
  refine forall₃_congr fun before after _ => ?_
  have hsound := (Sound.opened w r).run before
  rw [← Registry.oneEach_iff, hsound.distinct.definite_iff, and_self_iff]

/-! ## Section 3 - files that do not change -/

/-- Every identity that is reported leads to the source of the entry that reports it. -/
def Leading (d : RegistrySession η) : Prop := ∀ label ∈ d.registry.labels, (d.keyOf label.2).Same label.1

omit [Host η] in
theorem Leading.not_strays (h : d.Leading) (identity : String) : ¬ d.Strays identity := by
  rintro ⟨hmem, hnone, -⟩
  obtain ⟨e, he, rfl⟩ := List.mem_map.1 hmem
  have hsame : (d.keyOf e.identity).Same e.key := h e.label (List.mem_map_of_mem he)
  have hother := List.find?_eq_none.1 hnone e he
  exact hother (decide_eq_true hsame.symm)

theorem files_step (d : RegistrySession η) {e : RegistryOp η} (h : ∀ files touches, e ≠ .edit files touches) :
    (d.step e).workspace.files = d.workspace.files := by
  cases e with
  | edit files touches => exact absurd rfl (h files touches)
  | others w => rfl
  | resolve identity => exact Registry.files_resolve d.workspace d.registry identity
  | release identity => rfl
  | update key => exact Registry.files_visit (fun s => (Script.update_fields d.workspace s).1) d.registry key
  | poll => exact Registry.files_updateEach d.workspace d.registry _
  | drain => rfl
  | call key c hc =>
    have hfiles := Registry.files_visit (w := d.workspace)
      (f := fun w s => ((s.call w c).1, (s.call w c).2, ())) (fun s => Script.files_call d.workspace s c)
      d.registry key
    exact hfiles

theorem Leading.step (h : d.Leading) {e : RegistryOp η} (he : ∀ files touches, e ≠ .edit files touches) :
    (d.step e).Leading := by
  have hkeyOf : ∀ identity, (d.step e).keyOf identity = d.keyOf identity :=
    fun identity => Registry.keyOf_congr (d.setting_step e) (d.files_step he) identity
  intro label hmem
  rw [hkeyOf]
  by_cases hresolve : ∃ identity, e = .resolve identity
  · obtain ⟨identity, rfl⟩ := hresolve
    have hstep : (d.step (.resolve identity)).registry = (d.registry.resolve d.workspace identity).2.1 := rfl
    rw [hstep] at hmem
    rcases d.registry.labels_resolve d.workspace identity with hsame | ⟨-, hadded⟩
    · exact h label (hsame ▸ hmem)
    · rw [hadded] at hmem
      rcases List.mem_append.1 hmem with hold | hnew
      · exact h label hold
      · rw [List.mem_singleton.1 hnew]
        exact Path.Same.refl (d.keyOf identity)
  · rw [d.labels_step fun identity heq => hresolve ⟨identity, heq⟩] at hmem
    exact h label hmem

theorem Leading.run (h : d.Leading) {ops : List (RegistryOp η)}
    (hnone : ∀ files touches, .edit files touches ∉ ops) : (d.run ops).Leading := by
  induction ops generalizing d with
  | nil => exact h
  | cons e rest ih =>
    refine ih (h.step ?_) fun files touches hmem => hnone files touches (List.mem_cons_of_mem e hmem)
    rintro files touches rfl
    exact hnone files touches List.mem_cons_self

/-- So nothing strays as long as the files do not change. -/
theorem oneEach_of_unedited (w : Workspace η) (r : Registry) {ops : List (RegistryOp η)}
    (hnone : ∀ files touches, .edit files touches ∉ ops) : ((opened w r).run ops).registry.OneEach := by
  have hopened : (opened w r).registry.OneEach := List.nodup_nil
  have hleading : (opened w r).Leading := fun label hmem => absurd hmem List.not_mem_nil
  refine (oneEach_run_iff hopened).2 ?_ ops [] (List.append_nil ops).symm
  intro before identity after heq
  refine (hleading.run fun files touches hmem => hnone files touches ?_).not_strays identity
  rw [heq]
  exact List.mem_append_left _ hmem

end runs

/-! ### A link that is given another target -/

/-- An identity strays that is taken into use once, and is then made to lead to another source. -/
theorem strays_after_edit [Host η] {d : RegistrySession η} {identity text text' : String} {x x' : Extracted} {files : Files}
    (hempty : d.registry.entries = []) (hread : d.workspace.readSource (d.keyOf identity) = .ok text)
    (hx : (d.workspace.extract text).2 = .ok x) (touches : List Touch)
    (hmoved : ¬ (d.keyOf identity).Same (d.registry.keyOf files identity))
    (hread' : Workspace.readSource { d.workspace with files } (d.registry.keyOf files identity) = .ok text')
    (hx' : ((d.workspace.extract text).1.extract text').2 = .ok x') :
    ((d.step (.resolve identity)).step (.edit files touches)).Strays identity := by
  have hnone : d.registry.find? (d.keyOf identity) = none := by
    rw [Registry.find?, hempty]
    rfl
  obtain ⟨w', s, hresolve, hcontext⟩ := Registry.resolve_of_new hnone hread hx
  have hfirst : d.step (.resolve identity) = ⟨w', { d.registry with
      entries := d.registry.entries ++ [⟨d.keyOf identity, identity, s, 1⟩] }⟩ := by
    simp only [step, hresolve]
    rfl
  rw [hfirst, hempty]
  refine ⟨List.mem_cons_self, ?_, text', x', hread', ?_⟩
  · show Registry.find? (Registry.notice { d.registry with entries := [⟨d.keyOf identity, identity, s, 1⟩] } files
      touches) (d.registry.keyOf files identity) = none
    rw [Registry.find?_notice]
    simp [Registry.find?, hmoved]
  · rw [← hx']
    exact Workspace.extract_congr hcontext text'

/-- Two sources, and a link to the second. -/
def relinkedFiles : Files :=
  { entries := [(["spin"], .file Script.spinSource.toUTF8), (["top"], .file Loading.topSource.toUTF8),
      (["link"], .link ⟨"/top"⟩)] }

theorem keyOf_relinked : Registry.rooted.keyOf relinkedFiles "link" = ⟨"/top"⟩ := by
  have htop : relinkedFiles.Standing ["top"] := Files.standing_file (by decide +kernel) rfl
  have hlink : relinkedFiles.entry? ["link"] = some (.link (Files.canonical ["top"])) := rfl
  have hat : relinkedFiles.resolve ⟨"/link"⟩ = .ok ["top"] :=
    Files.resolve_link (by decide +kernel) GroupSession.isName_link (by decide +kernel) hlink htop (by simp)
  rw [Registry.keyOf_rooted GroupSession.resolvePath_link, Files.normalize_of_resolved (by decide +kernel) hat]
  rfl

/-- A source is taken into use through a link, and so is another one, once the link leads there. -/
def strayOps : List (RegistryOp Stage) := [.resolve "link", .edit relinkedFiles [], .resolve "link"]

/-- A session whose files have a link. -/
def linkedSession : RegistrySession Stage := opened GroupSession.linkedWorkspace .rooted

theorem strays_relinked : (linkedSession.run (strayOps.take 2)).Strays "link" := by
  have hkey : linkedSession.keyOf "link" = ⟨"/spin"⟩ := GroupSession.keyOf_linked Script.spinSource
  have hkey' : linkedSession.registry.keyOf relinkedFiles "link" = ⟨"/top"⟩ := keyOf_relinked
  have hread : linkedSession.workspace.readSource (linkedSession.keyOf "link") = .ok Script.spinSource := by
    have htext : linkedSession.workspace.files.readText ⟨"/spin"⟩ = .ok Script.spinSource :=
      Script.readText_spin rfl
    rw [hkey, Workspace.readSource, htext]
  have hread' : Workspace.readSource { linkedSession.workspace with files := relinkedFiles }
      (linkedSession.registry.keyOf relinkedFiles "link") = .ok Loading.topSource := by
    have hpieces : Path.pieces ⟨"/top"⟩ = ["", "top"] := by decide +kernel
    have htext : relinkedFiles.readText ⟨"/top"⟩ = .ok Loading.topSource :=
      Files.readText_of_root (by decide +kernel) (by decide +kernel) hpieces rfl
    rw [hkey', Workspace.readSource, htext]
  have hmoved : ¬ (linkedSession.keyOf "link").Same (linkedSession.registry.keyOf relinkedFiles "link") := by
    rw [hkey, hkey']
    decide +kernel
  obtain ⟨x, hx⟩ : ∃ x, (linkedSession.workspace.extract Script.spinSource).2 = .ok x :=
    ⟨_, eq_ok_of_isOk (by decide +kernel)⟩
  obtain ⟨x', hx'⟩ : ∃ x, ((linkedSession.workspace.extract Script.spinSource).1.extract Loading.topSource).2 = .ok x :=
    ⟨_, eq_ok_of_isOk (by decide +kernel)⟩
  exact strays_after_edit rfl hread hx [] hmoved hread' hx'

/-- The identities are not kept apart in every run. -/
theorem identity_reported_twice : ¬ ∀ (w : Workspace Stage) (r : Registry) (ops : List (RegistryOp Stage)),
    ((opened w r).run ops).registry.identities.Nodup := by
  intro hall
  have hopened : linkedSession.registry.OneEach := List.nodup_nil
  have hone : ∀ before after, strayOps = before ++ after → (linkedSession.run before).registry.OneEach :=
    fun before after _ => (Registry.oneEach_iff _).2 (hall _ .rooted before)
  exact (oneEach_run_iff hopened).1 hone (strayOps.take 2) "link" [] rfl strays_relinked

end RegistrySession

end HotReload
