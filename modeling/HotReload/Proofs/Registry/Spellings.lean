import HotReload.Proofs.Registry.Identities
import HotReload.Proofs.Storage.Canonical

/-! # Spellings of a source

    Many identities stand for one source: with the extension or without it, with idle
    pieces and detours, through links, or from the root.  A registry that takes two of
    them into use has one script for both, with two users, if their keys are the same.
    For identities that lead to their source as they are spelled this is so.

    It is not so for every spelling under which a source can be loaded.  A trailing slash
    behind the name of a link to a file leads nowhere, so that the key keeps the name of
    the link; the script is loaded through the link all the same, a second time. -/

namespace HotReload

variable {η : Type}

namespace Registry

/-! ## Section 1 - two identities, one script -/

/-- What has become of a registry after a script was taken into use by two keys: they stand for one
    entry, and both uses are counted on it. -/
structure Shared (r r' : Registry) (key₁ key₂ : Path) : Prop where
  entry : r'.find? key₂ = r'.find? key₁
  users : r'.usersAt key₁ = r.usersAt key₁ + 2

section twice
variable {w w₁ w₂ : Workspace η} {r r₁ r₂ : Registry} {identity₁ identity₂ : String} {key₁ key₂ : Path}

theorem shared_iff_same (h₁ : r.resolve w identity₁ = (w₁, r₁, .ok key₁))
    (h₂ : r₁.resolve w₁ identity₂ = (w₂, r₂, .ok key₂)) : r.Shared r₂ key₁ key₂ ↔ key₁.Same key₂ := by
  have husers : r₂.usersAt key₁ = r.usersAt key₁ + 1 + if key₁.Same key₂ then 1 else 0 := by
    rw [usersAt_resolve h₂, usersAt_resolve h₁, if_pos (Path.Same.refl key₁)]
  constructor
  · intro hshared
    have hcounted := hshared.users
    rw [husers] at hcounted
    split at hcounted
    · assumption
    · omega
  · intro hsame
    rw [if_pos hsame] at husers
    exact ⟨find?_congr r₂ hsame.symm, husers⟩

/-- The keys that are handed back are those of the identities, in the files as they are. -/
theorem same_iff_keyOf (h₁ : r.resolve w identity₁ = (w₁, r₁, .ok key₁))
    (h₂ : r₁.resolve w₁ identity₂ = (w₂, r₂, .ok key₂)) :
    key₁.Same key₂ ↔ (r.keyOf w.files identity₁).Same (r.keyOf w.files identity₂) := by
  obtain ⟨hfiles, hsetting, hkey₁, -⟩ := resolve_ok h₁
  obtain ⟨-, -, hkey₂, -⟩ := resolve_ok h₂
  rw [keyOf_congr hsetting hfiles] at hkey₂
  rw [same_iff_of_same hkey₂]
  exact ⟨hkey₁.symm.trans, hkey₁.trans⟩

/-- Two identities with keys of their own are loaded one after the other. -/
theorem resolve_both {text₁ text₂ : String} {x₁ x₂ : Extracted} (hempty : r.entries = [])
    (hkey₁ : r.keyOf w.files identity₁ = key₁) (hkey₂ : r.keyOf w.files identity₂ = key₂)
    (hapart : ¬ key₁.Same key₂) (hread₁ : w.readSource key₁ = .ok text₁) (hx₁ : (w.extract text₁).2 = .ok x₁)
    (hread₂ : w.readSource key₂ = .ok text₂) (hx₂ : ((w.extract text₁).1.extract text₂).2 = .ok x₂) :
    ∃ w₁ r₁ w₂ r₂, r.resolve w identity₁ = (w₁, r₁, .ok key₁) ∧ r₁.resolve w₁ identity₂ = (w₂, r₂, .ok key₂) := by
  have hnone (k : Path) : r.find? k = none := by rw [find?, hempty, List.find?_nil]
  subst hkey₁
  obtain ⟨w₁, s, h₁, hcontext⟩ := resolve_of_new (hnone _) hread₁ hx₁
  obtain ⟨hfiles, hsetting, -⟩ := resolve_ok h₁
  have hnone₂ : Registry.find? { r with entries := r.entries ++ [⟨r.keyOf w.files identity₁, identity₁, s, 1⟩] }
      key₂ = none := by
    rw [find?_add, hnone, if_neg hapart]
    rfl
  -- the second compile starts from what the first one has left, in the same files
  have hread : w₁.readSource key₂ = .ok text₂ := (Workspace.readSource_congr hfiles key₂).trans hread₂
  have hx := (Workspace.extract_congr hcontext text₂).trans hx₂
  obtain ⟨w₂, s₂, h₂, -, -⟩ := resolve_new ((keyOf_congr hsetting hfiles identity₂).trans hkey₂) hnone₂ hread hx
  exact ⟨w₁, _, w₂, _, h₁, h₂⟩

/-- Two identities share a script if both lead to one place as they are spelled. -/
theorem shared_of_followed {at_ : Location} (h₁ : r.resolve w identity₁ = (w₁, r₁, .ok key₁))
    (h₂ : r₁.resolve w₁ identity₂ = (w₂, r₂, .ok key₂))
    (hat₁ : w.files.resolve (w.files.absolute (r.resolvePath identity₁)) = .ok at_)
    (hat₂ : w.files.resolve (w.files.absolute (r.resolvePath identity₂)) = .ok at_) :
    r.Shared r₂ key₁ key₂ := by
  rw [shared_iff_same h₁ h₂, same_iff_keyOf h₁ h₂, keyOf, keyOf, Files.normalize_of_followed hat₁,
    Files.normalize_of_followed hat₂]

/-- Two identities that are loaded from one place share a script unless only one of them stops at a
    link, or they stop at different ones. -/
theorem shared_iff_stopsAt {at_ : Location} (h₁ : r.resolve w identity₁ = (w₁, r₁, .ok key₁))
    (h₂ : r₁.resolve w₁ identity₂ = (w₂, r₂, .ok key₂))
    (hat₁ : w.files.resolve (r.keyOf w.files identity₁) = .ok at_)
    (hat₂ : w.files.resolve (r.keyOf w.files identity₂) = .ok at_) :
    r.Shared r₂ key₁ key₂ ↔
      w.files.stopsAt (r.resolvePath identity₁) = w.files.stopsAt (r.resolvePath identity₂) := by
  rw [shared_iff_same h₁ h₂, same_iff_keyOf h₁ h₂]
  exact Files.normalize_same_iff hat₁ hat₂

end twice

/-! ### A source, and a link to it -/

theorem resolve_spin_slashed : GroupSession.linkedWorkspace.files.resolve ⟨"/spin/"⟩ = .error .notFolder :=
  Files.resolve_file_slashed (by decide +kernel) Script.isName_spin (by decide +kernel) rfl

theorem keyOf_spin_slashed : rooted.keyOf GroupSession.linkedWorkspace.files "spin/" = ⟨"/spin"⟩ := by
  have hpath : rooted.resolvePath "spin/" = ⟨"/spin/"⟩ := by decide +kernel
  rw [keyOf_rooted hpath, Files.normalize_of_failed (by decide +kernel) Script.isName_spin resolve_spin_slashed
    (by decide +kernel) (by decide +kernel)]
  rfl

theorem resolve_link_eq : GroupSession.linkedWorkspace.files.resolve ⟨"/link"⟩ = .ok ["spin"] :=
  GroupSession.resolve_link_eq Script.spinSource

theorem resolve_spin_eq : GroupSession.linkedWorkspace.files.resolve ⟨"/spin"⟩ = .ok ["spin"] :=
  Files.resolve_file (by decide +kernel) Script.isName_spin (by decide +kernel) rfl

/-- The link is followed as it is, and the slash behind the name of the source makes no difference. -/
theorem shared_link_source : ∃ w₁ r₁ w₂ r₂ key₂,
    rooted.resolve GroupSession.linkedWorkspace "link" = (w₁, r₁, .ok ⟨"/spin"⟩) ∧
      r₁.resolve w₁ "spin/" = (w₂, r₂, .ok key₂) ∧ rooted.Shared r₂ ⟨"/spin"⟩ key₂ := by
  have hkey : rooted.keyOf GroupSession.linkedWorkspace.files "link" = ⟨"/spin"⟩ := GroupSession.keyOf_linked Script.spinSource
  have hstops : GroupSession.linkedWorkspace.files.stopsAt (rooted.resolvePath "link") =
      GroupSession.linkedWorkspace.files.stopsAt (rooted.resolvePath "spin/") := by
    have hpath : rooted.resolvePath "spin/" = ⟨"/spin/"⟩ := by decide +kernel
    have hlink : GroupSession.linkedWorkspace.files.stopsAt ⟨"/link"⟩ = none :=
      Files.stopsAt_of_followed resolve_link_eq
    have hfile : GroupSession.linkedWorkspace.files.entry? ["spin"] = some (.file Script.spinSource.toUTF8) := rfl
    have hspin : GroupSession.linkedWorkspace.files.stopsAt ⟨"/spin/"⟩ = none :=
      Files.stopsAt_of_failed (by decide +kernel) resolve_spin_slashed (by decide +kernel) (by decide +kernel) hfile
    rw [GroupSession.resolvePath_link, hpath, hlink, hspin]
  obtain ⟨w₁, r₁, h₁⟩ := GroupSession.resolve_linked
  -- the second identity leads to the entry that the first one has made
  obtain ⟨e, he⟩ : ∃ e, r₁.find? (r₁.keyOf w₁.files "spin/") = some e := by
    obtain ⟨hfiles, hsetting, -⟩ := resolve_ok h₁
    rw [keyOf_congr hsetting hfiles, keyOf_spin_slashed]
    exact Option.isSome_iff_exists.1 (by simpa [knows, standing?] using knows_resolve h₁)
  obtain ⟨w₂, r₂, h₂⟩ := resolve_known he
  exact ⟨w₁, r₁, w₂, r₂, e.key, h₁, h₂,
    (shared_iff_stopsAt h₁ h₂ (hkey ▸ resolve_spin_eq) (keyOf_spin_slashed ▸ resolve_spin_eq)).2 hstops⟩

theorem keyOf_link_slashed : rooted.keyOf GroupSession.linkedWorkspace.files "link/" = ⟨"/link"⟩ := by
  have hpath : rooted.resolvePath "link/" = ⟨"/link/"⟩ := by decide +kernel
  have hlink : GroupSession.linkedWorkspace.files.entry? ["link"] = some (.link (Files.canonical ["spin"])) := rfl
  have hslashed : GroupSession.linkedWorkspace.files.resolve ⟨"/link/"⟩ = .error .notFolder :=
    Files.resolve_link_slashed (by decide +kernel) GroupSession.isName_link (by decide +kernel) hlink
      Script.isName_spin rfl
  rw [keyOf_rooted hpath, Files.normalize_of_failed (by decide +kernel) GroupSession.isName_link hslashed
    (by decide +kernel) (by decide +kernel)]
  rfl

/-- A source is loaded a second time by a slash behind the name of a link to it. -/
theorem loaded_beside_link : ¬ ∀ (w w₁ w₂ : Workspace Stage) (r r₁ r₂ : Registry) (identity₁ identity₂ : String)
    (key₁ key₂ : Path) (at_ : Location) (content : ByteArray),
    r.resolve w identity₁ = (w₁, r₁, .ok key₁) → r₁.resolve w₁ identity₂ = (w₂, r₂, .ok key₂) →
    w.files.resolve (r.keyOf w.files identity₁) = .ok at_ → w.files.resolve (r.keyOf w.files identity₂) = .ok at_ →
    w.files.entry? at_ = some (.file content) → r.Shared r₂ key₁ key₂ := by
  intro hall
  have hkey : rooted.keyOf GroupSession.linkedWorkspace.files "link" = ⟨"/spin"⟩ := GroupSession.keyOf_linked Script.spinSource
  have hapart : ¬ Path.Same ⟨"/spin"⟩ ⟨"/link"⟩ := by decide +kernel
  have htext : GroupSession.linkedWorkspace.files.readText ⟨"/spin"⟩ = .ok Script.spinSource :=
    Script.readText_spin rfl
  have hread : GroupSession.linkedWorkspace.readSource ⟨"/spin"⟩ = .ok Script.spinSource := by
    rw [Workspace.readSource, htext]
  have hread' : GroupSession.linkedWorkspace.readSource ⟨"/link"⟩ = .ok Script.spinSource := by
    rw [Workspace.readSource, Files.readText_congr (resolve_link_eq.trans resolve_spin_eq.symm), htext]
  obtain ⟨x, hx⟩ : ∃ x, (GroupSession.linkedWorkspace.extract Script.spinSource).2 = .ok x :=
    ⟨_, eq_ok_of_isOk (by decide +kernel)⟩
  obtain ⟨x', hx'⟩ : ∃ x,
      ((GroupSession.linkedWorkspace.extract Script.spinSource).1.extract Script.spinSource).2 = .ok x :=
    ⟨_, eq_ok_of_isOk (by decide +kernel)⟩
  obtain ⟨w₁, r₁, w₂, r₂, h₁, h₂⟩ := resolve_both rfl hkey keyOf_link_slashed hapart hread hx hread' hx'
  have hshared := hall _ _ _ _ _ _ _ _ _ _ _ _ h₁ h₂ (hkey ▸ resolve_spin_eq)
    (keyOf_link_slashed ▸ resolve_link_eq) rfl
  exact hapart ((shared_iff_same h₁ h₂).1 hshared)

end Registry

end HotReload
