import HotReload.Storage.Change
import HotReload.Proofs.Storage.Canonical

/-! # The root folder

    Where a path to a name in the root folder leads, whatever the files hold: to the file
    of this name, through a link to what the link names, and nowhere if nothing has the
    name or if a slash behind it asks for a folder. -/

namespace HotReload.Files

open HotReload.Path (IsName)

variable {f : Files} {name : String} {content : ByteArray} {l : Location} {p : Path}

/-! ## Section 1 - steps of a walk -/

theorem standing_file (hname : IsName name) (hentry : f.entry? [name] = some (.file content)) : f.Standing [name] :=
  .child .root rfl hname hentry fun _ => Entry.noConfusion

/-- Nothing stands below a file. -/
theorem walk_below_file {here : Location} (hentry : f.entry? here = some (.file content)) (follow : Bool) (links : Nat)
    (piece : String) (rest : List String) : f.walk follow links here (piece :: rest) = .error .notFolder := by
  rw [walk, hentry]

/-- A link in the root folder leads to what its path spells out. -/
theorem walk_link (hname : IsName name) (hentry : f.entry? [name] = some (.link (canonical l))) (hl : f.Standing l)
    (hroot : l ≠ []) (links : Nat) (rest : List String) :
    f.walk true (links + 1) [] (name :: rest) = f.walk true links l rest := by
  have habsolute := isAbsolute_canonical l
  have htext := Path.ne_empty_of_isAbsolute habsolute
  have hleads : ¬ Path.isIdle name = true := by simp [hname.leads]
  have hstart : f.entry? [] = some (.folder 0) := rfl
  rw [walk, hstart]
  dsimp only
  rw [if_neg hleads, if_neg hname.down, List.nil_append, hentry]
  dsimp only
  rw [if_neg (by simp), if_neg htext, if_pos habsolute, pieces_canonical hl.names, if_neg hroot, List.cons_append,
    walk_root_idle rfl, hl.walk_append]

/-! ## Section 2 - what a path leads to -/

theorem resolve_root (f : Files) : f.resolve ⟨"/"⟩ = .ok [] := Standing.root.resolve_canonical

section paths
variable (habsolute : p.isAbsolute = true) (hname : IsName name)
include habsolute hname

theorem resolve_file (hpieces : p.pieces = ["", name]) (hentry : f.entry? [name] = some (.file content)) :
    f.resolve p = .ok [name] := by
  have hstep := (standing_file hname hentry).walk_append true maxLinks []
  rw [List.append_nil] at hstep
  rw [resolve_iff_walk habsolute, hpieces, walk_root_idle rfl, hstep, walk]

/-- Writing to a file replaces its content, and watchers see its name. -/
theorem write_file (hpieces : p.pieces = ["", name]) (hparent : p.parent? = some ⟨"/"⟩)
    (hentry : f.entry? [name] = some (.file content)) (new : ByteArray) :
    f.write p new = ⟨f.put [name] (.file new), true, f.touch [name]⟩ := by
  have hway : f.makeFolder ⟨"/"⟩ = ⟨f, true, []⟩ := by
    have hroot : Path.pieces ⟨"/"⟩ = ["", ""] := by decide +kernel
    rw [makeFolder, hroot]
    rfl
  have hwalk := (resolve_iff_walk habsolute).1 (resolve_file habsolute hname hpieces hentry)
  have hlocate : f.locate true p = .ok (.present [name]) := by
    rw [locate, if_neg (Path.ne_empty_of_isAbsolute habsolute), if_pos habsolute, hwalk]
  unfold write
  simp only [hparent, hway, hlocate, hentry]
  rfl

theorem resolve_link (hpieces : p.pieces = ["", name]) (hentry : f.entry? [name] = some (.link (canonical l)))
    (hl : f.Standing l) (hroot : l ≠ []) : f.resolve p = .ok l := by
  have hstep := walk_link hname hentry hl hroot 39 []
  rw [resolve_iff_walk habsolute, hpieces, walk_root_idle rfl, maxLinks, hstep, walk]

omit hname in
theorem resolve_of_failed {fault : IoFault} (h : f.walk true maxLinks [] p.pieces = .error fault) :
    f.resolve p = .error fault := by
  rw [resolve, locate, if_neg (Path.ne_empty_of_isAbsolute habsolute), if_pos habsolute, h]

theorem resolve_free (hpieces : p.pieces = ["", name]) (hentry : f.entry? [name] = none) :
    f.resolve p = .error .notFound := by
  have hleads : ¬ Path.isIdle name = true := by simp [hname.leads]
  have hstart : f.entry? [] = some (.folder 0) := rfl
  have hwalk : f.walk true maxLinks [] p.pieces = .ok (.vacant [] name) := by
    rw [hpieces, walk_root_idle rfl, walk, hstart]
    dsimp only
    rw [if_neg hleads, if_neg hname.down, List.nil_append, hentry]
    rfl
  rw [resolve, locate, if_neg (Path.ne_empty_of_isAbsolute habsolute), if_pos habsolute, hwalk]

/-- A slash behind the name of a file asks for a folder. -/
theorem resolve_file_slashed (hpieces : p.pieces = ["", name, ""])
    (hentry : f.entry? [name] = some (.file content)) : f.resolve p = .error .notFolder := by
  have hstep := (standing_file hname hentry).walk_append true maxLinks [""]
  apply resolve_of_failed habsolute
  rw [hpieces, walk_root_idle rfl]
  exact hstep.trans (walk_below_file hentry true maxLinks "" [])

/-- So it does behind the name of a link to a file. -/
theorem resolve_link_slashed {target : String} (hpieces : p.pieces = ["", name, ""])
    (hentry : f.entry? [name] = some (.link (canonical [target]))) (htarget : IsName target)
    (hfile : f.entry? [target] = some (.file content)) : f.resolve p = .error .notFolder := by
  have hstep := walk_link hname hentry (standing_file htarget hfile) (List.cons_ne_nil _ _) 39 [""]
  apply resolve_of_failed habsolute
  rw [hpieces, walk_root_idle rfl, maxLinks, hstep]
  exact walk_below_file hfile true 39 "" []

/-! ## Section 3 - what a path is normalized to -/

omit hname in
theorem absolute_of_isAbsolute (f : Files) : f.absolute p = p := if_pos habsolute

omit hname in
theorem normalize_of_resolved (h : f.resolve p = .ok l) : f.normalize p = canonical l :=
  normalize_of_followed (by rw [absolute_of_isAbsolute habsolute, h])

/-- A path that leads nowhere keeps its last name. -/
theorem normalize_of_failed {fault : IoFault} (h : f.resolve p = .error fault) (hparent : p.parent? = some ⟨"/"⟩)
    (hlast : p.fileName? = some name) : f.normalize p = canonical [name] := by
  have hjoin := join_canonical (l := []) (fun _ => List.not_mem_nil.elim) hname
  unfold normalize
  rw [absolute_of_isAbsolute habsolute]
  simp only [h, hparent, hlast, resolve_root]
  exact hjoin

omit hname in
/-- It stops at no link if the name is that of a file. -/
theorem stopsAt_of_failed {fault : IoFault} (h : f.resolve p = .error fault) (hparent : p.parent? = some ⟨"/"⟩)
    (hlast : p.fileName? = some name) (hentry : f.entry? [name] = some (.file content)) : f.stopsAt p = none := by
  unfold stopsAt
  rw [absolute_of_isAbsolute habsolute]
  simp only [h, hparent, hlast, resolve_root, List.nil_append, hentry]

end paths

/-! ## Section 4 - what is read -/

theorem fromUTF8?_toUTF8 (text : String) : String.fromUTF8? text.toUTF8 = some text := by
  unfold String.fromUTF8?
  rw [dif_pos (String.toUTF8_eq_toByteArray ▸ text.isValidUTF8)]
  rfl

/-- A file in the root folder is read under its name. -/
theorem readText_of_root {text : String} (habsolute : p.isAbsolute = true) (hname : IsName name)
    (hpieces : p.pieces = ["", name]) (hentry : f.entry? [name] = some (.file text.toUTF8)) :
    f.readText p = .ok text := by
  rw [readText, readBytes, resolve_file habsolute hname hpieces hentry]
  simp only [hentry, fromUTF8?_toUTF8]

end HotReload.Files
