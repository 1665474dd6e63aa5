import HotReload.Storage.Files
import Mathlib.Data.List.Basic

/-! # Canonical paths

    The canonical path of a place spells its names out from the root.  It is the only
    path to the place that holds nothing but names and runs through no link: whatever
    path leads to the place, it is found again by its canonical path, and two canonical
    paths are the same only if the places are.

    A path that can be followed is normalized to the canonical path of the place that it
    leads to.  One that cannot is normalized to its last name, below the place that its
    parent leads to.  The two agree, whatever the spelling, unless this last name is that
    of a link: then the path *stops at the link* instead of following it. -/

namespace HotReload

namespace Path

/-! ## Section 1 - pieces -/

theorem cut_eq_splitOn (cs : List Char) : cut cs = cs.splitOn '/' := by
  induction cs with
  | nil => rfl
  | cons c cs ih =>
    rw [cut, ih, List.splitOn_cons_eq_if_modifyHead]
    cases h : cs.splitOn '/' with
    | nil => exact absurd h (List.splitOn_ne_nil _ _)
    | cons p ps => by_cases hc : c = '/' <;> simp [hc]

theorem cut_ne_nil (cs : List Char) : cut cs ≠ [] := by
  rw [cut_eq_splitOn]
  exact List.splitOn_ne_nil _ _

/-- No piece holds a slash. -/
theorem slash_not_mem_of_mem_cut {cs p : List Char} (hp : p ∈ cut cs) : '/' ∉ p := by
  induction cs generalizing p with
  | nil =>
    rw [List.mem_singleton.1 hp]
    exact List.not_mem_nil
  | cons c cs ih =>
    rw [cut] at hp
    cases h : cut cs with
    | nil => exact absurd h (cut_ne_nil cs)
    | cons first rest =>
      rw [h] at hp ih
      dsimp only at hp
      split at hp
      · rcases List.mem_cons.1 hp with rfl | hold
        · exact List.not_mem_nil
        · exact ih hold
      · next hc =>
        rcases List.mem_cons.1 hp with rfl | hold
        · rw [List.mem_cons, not_or]
          exact ⟨fun heq => hc heq.symm, ih List.mem_cons_self⟩
        · exact ih (List.mem_cons_of_mem first hold)

theorem slash_not_mem_of_mem_pieces {p : Path} {piece : String} (h : piece ∈ p.pieces) : '/' ∉ piece.toList := by
  obtain ⟨cs, hcs, rfl⟩ := List.mem_map.1 h
  rw [String.toList_ofList]
  exact slash_not_mem_of_mem_cut hcs

/-- A path that is put together from pieces is cut into them again. -/
theorem pieces_ofPieces {ps : List String} (hne : ps ≠ []) (hroot : ps ≠ [""])
    (hps : ∀ piece ∈ ps, '/' ∉ piece.toList) : (ofPieces ps).pieces = ps := by
  -- a lone empty piece is left out, because the root is written as two of them
  have hcut : cut (String.intercalate "/" ps).toList = ps.map String.toList := by
    rw [String.toList_intercalate, cut_eq_splitOn]
    refine List.splitOn_intercalate '/' ?_ (List.map_eq_nil_iff.not.2 hne)
    intro l hl
    obtain ⟨piece, hpiece, rfl⟩ := List.mem_map.1 hl
    exact hps piece hpiece
  rw [ofPieces, if_neg hroot, pieces, hcut, List.map_map]
  exact List.map_id'' (fun s => String.ofList_toList) ps

/-- A path is absolute if its first piece is empty. -/
theorem isAbsolute_ofPieces (rest : List String) : (ofPieces ("" :: rest)).isAbsolute = true := by
  cases rest with
  | nil => rfl
  | cons piece rest =>
    rw [ofPieces, if_neg (by simp), isAbsolute, String.intercalate_cons_cons]
    simp

/-- The pieces of an absolute path begin with an empty one. -/
theorem pieces_of_isAbsolute {p : Path} (h : p.isAbsolute = true) : ∃ rest, p.pieces = "" :: rest := by
  obtain ⟨cs, hcs⟩ := List.head?_eq_some_iff.1 (of_decide_eq_true h)
  unfold pieces
  rw [hcs, cut]
  cases hcut : cut cs with
  | nil => exact absurd hcut (cut_ne_nil cs)
  | cons first rest => exact ⟨_, rfl⟩

theorem ne_empty_of_isAbsolute {p : Path} (h : p.isAbsolute = true) : p.text ≠ "" := by
  intro hempty
  rw [isAbsolute, hempty] at h
  cases h

/-- The parent of an absolute path is absolute. -/
theorem isAbsolute_parent {p q : Path} (h : p.isAbsolute = true) (hq : p.parent? = some q) :
    q.isAbsolute = true := by
  obtain ⟨rest, hpieces⟩ := pieces_of_isAbsolute h
  have hbody : p.body = "" :: (rest.reverse.dropWhile isIdle).reverse := by rw [body, hpieces, trim]
  unfold parent? at hq
  rw [hbody] at hq
  cases hrest : (rest.reverse.dropWhile isIdle).reverse with
  | nil =>
    rw [hrest] at hq
    cases hq
  | cons second more =>
    rw [hrest] at hq
    cases hq
    exact isAbsolute_ofPieces _

theorem isAbsolute_join {p : Path} (h : p.isAbsolute = true) (q : Path) : (p.join q).isAbsolute = true := by
  obtain ⟨cs, hcs⟩ := List.head?_eq_some_iff.1 (of_decide_eq_true h)
  have hgoes (rest : String) : (Path.mk (p.text ++ rest)).isAbsolute = true := by
    simp [isAbsolute, String.toList_append, hcs]
  unfold join
  split
  · next hown =>
    rcases hown with hq | hempty
    · exact hq
    · rw [hempty] at hcs
      cases hcs
  · split
    · exact hgoes q.text
    · rw [String.append_assoc]
      exact hgoes _

/-! ## Section 2 - names -/

/-- A name that leads from a folder to something in it. -/
structure IsName (name : String) : Prop where
  leads : isIdle name = false
  down : name ≠ ".."
  whole : '/' ∉ name.toList

instance (name : String) : Decidable (IsName name) :=
  decidable_of_iff (isIdle name = false ∧ name ≠ ".." ∧ '/' ∉ name.toList)
    ⟨fun h => ⟨h.1, h.2.1, h.2.2⟩, fun h => ⟨h.leads, h.down, h.whole⟩⟩

theorem IsName.ne_empty {name : String} (h : IsName name) : name ≠ "" := by
  rintro rfl
  cases h.leads

theorem IsName.isAbsolute {name : String} (h : IsName name) : (Path.mk name).isAbsolute = false := by
  refine decide_eq_false fun hhead => ?_
  exact h.whole (List.mem_of_mem_head? hhead)

theorem mem_of_mem_trim {ps : List String} {piece : String} (h : piece ∈ trim ps) : piece ∈ ps := by
  cases ps with
  | nil => exact h
  | cons first rest =>
    rcases List.mem_cons.1 h with rfl | hrest
    · exact List.mem_cons_self
    · refine List.mem_cons_of_mem first ?_
      have hkept := (List.dropWhile_suffix isIdle).subset (List.mem_reverse.1 hrest)
      exact List.mem_reverse.1 hkept

/-- What a path has at its end is a name. -/
theorem isName_of_fileName? {p : Path} {name : String} (h : p.fileName? = some name) : IsName name := by
  unfold fileName? at h
  cases hlast : p.body.getLast? with
  | none =>
    rw [hlast] at h
    cases h
  | some last =>
    rw [hlast] at h
    dsimp only at h
    split at h
    · cases h
    · next hreal =>
      cases h
      simp only [List.mem_cons, List.not_mem_nil, or_false, not_or] at hreal
      have hpiece : name ∈ p.pieces := mem_of_mem_trim (List.mem_of_getLast? hlast)
      exact ⟨by simp [isIdle, hreal], hreal.2.2, slash_not_mem_of_mem_pieces hpiece⟩

end Path

namespace Files

open HotReload.Path (IsName)

/-! ## Section 3 - the canonical path -/

section canonical
variable {l l' : Location}

theorem canonical_eq_ofPieces (l : Location) : canonical l = Path.ofPieces ("" :: l) := by
  cases l with
  | nil => rfl
  | cons name names => rw [canonical, Path.ofPieces, if_neg (by simp), String.intercalate_cons_cons]; rfl

theorem isAbsolute_canonical (l : Location) : (canonical l).isAbsolute = true := by
  rw [canonical_eq_ofPieces]
  exact Path.isAbsolute_ofPieces l

/-- The canonical path of the root has a second empty piece behind its slash. -/
theorem pieces_canonical (hl : ∀ name ∈ l, IsName name) :
    (canonical l).pieces = "" :: if l = [] then [""] else l := by
  cases l with
  | nil => rfl
  | cons name names =>
    rw [canonical_eq_ofPieces, Path.pieces_ofPieces (by simp) (by simp), if_neg (List.cons_ne_nil _ _)]
    intro piece hpiece
    rcases List.mem_cons.1 hpiece with rfl | hname
    · exact List.not_mem_nil
    · exact (hl piece hname).whole

theorem components_canonical (hl : ∀ name ∈ l, IsName name) : (canonical l).components = "/" :: l := by
  rw [Path.components, pieces_canonical hl]
  dsimp only
  rw [isAbsolute_canonical, if_pos rfl, List.singleton_append]
  congr 1
  split
  · next hroot => rw [hroot]; rfl
  · exact List.filter_eq_self.2 fun name hname => by rw [(hl name hname).leads]; rfl

/-- Two canonical paths are the same only if the places are. -/
theorem canonical_same_iff (hl : ∀ name ∈ l, IsName name) (hl' : ∀ name ∈ l', IsName name) :
    (canonical l).Same (canonical l') ↔ l = l' := by
  unfold Path.Same
  rw [components_canonical hl, components_canonical hl', List.cons.injEq, and_iff_right rfl]

/-- Below the root, a canonical path does not end in a slash. -/
theorem getLast?_canonical (hroot : l ≠ []) (hl : ∀ name ∈ l, IsName name) :
    (canonical l).text.toList.getLast? ≠ some '/' := by
  obtain ⟨before, name, rfl⟩ := (List.eq_nil_or_concat l).resolve_left hroot
  rw [List.concat_eq_append] at hl ⊢
  have hname := hl name (by simp)
  have hne : name.toList ≠ [] := fun h => hname.ne_empty (String.toList_eq_nil_iff.1 h)
  -- the text ends as its last name does
  obtain ⟨start, hstart⟩ : ∃ start, (canonical (before ++ [name])).text = start ++ name := by
    by_cases hbefore : before = []
    · subst hbefore
      exact ⟨"/", rfl⟩
    · refine ⟨"/" ++ (String.intercalate "/" before ++ "/"), ?_⟩
      rw [canonical, String.intercalate_append_of_ne_nil hbefore (List.cons_ne_nil _ _), String.intercalate_singleton]
      simp only [String.append_assoc]
  rw [hstart, String.toList_append, List.getLast?_append_of_ne_nil _ hne]
  exact fun h => hname.whole (List.mem_of_getLast? h)

/-- The canonical path of something in a folder goes on from that of the folder. -/
theorem join_canonical {name : String} (hl : ∀ name ∈ l, IsName name) (hname : IsName name) :
    (canonical l).join ⟨name⟩ = canonical (l ++ [name]) := by
  have htext : (canonical l).text ≠ "" := by simp [canonical]
  have hbelow : ¬ ((Path.mk name).isAbsolute = true ∨ (canonical l).text = "") := by
    simp [hname.isAbsolute, htext]
  rw [Path.join, if_neg hbelow]
  by_cases hroot : l = []
  · subst hroot
    rw [if_pos (by rfl)]
    rfl
  · rw [if_neg (getLast?_canonical hroot hl), canonical, canonical, String.intercalate_append_of_ne_nil hroot (by simp),
      String.intercalate_singleton]
    simp only [String.append_assoc]

end canonical

/-! ## Section 4 - what stands in the tree -/

/-- A location that is reached from the root through folders alone, without a link. -/
inductive Standing (f : Files) : Location → Prop where
  | root : Standing f []
  | child {here : Location} {name : String} {id : Nat} {entry : Entry} (hhere : Standing f here)
      (hfolder : f.entry? here = some (.folder id)) (hname : IsName name)
      (hentry : f.entry? (here ++ [name]) = some entry) (hlink : ∀ target, entry ≠ .link target) :
      Standing f (here ++ [name])

/-- A name of something that is no link is a step down. -/
theorem walk_down {f : Files} {follow : Bool} {links id : Nat} {here : Location} {name : String} {entry : Entry}
    {rest : List String} (hfolder : f.entry? here = some (.folder id)) (hname : IsName name)
    (hentry : f.entry? (here ++ [name]) = some entry) (hlink : ∀ target, entry ≠ .link target) :
    f.walk follow links here (name :: rest) = f.walk follow links (here ++ [name]) rest := by
  rw [walk, hfolder]
  dsimp only
  rw [if_neg (by simp [hname.leads]), if_neg hname.down, hentry]
  cases entry with
  | link target => exact absurd rfl (hlink target)
  | file => rfl
  | folder => rfl

/-- An idle piece leads from the root to the root. -/
theorem walk_root_idle {f : Files} {follow : Bool} {links : Nat} {piece : String} {rest : List String}
    (h : Path.isIdle piece = true) : f.walk follow links [] (piece :: rest) = f.walk follow links [] rest := by
  rw [walk, entry?, if_pos rfl]
  simp only [h, if_true]

namespace Standing

variable {f : Files} {l at_ : Location}

theorem names (h : f.Standing l) : ∀ name ∈ l, IsName name := by
  induction h with
  | root => intro name hname; cases hname
  | child hhere hfolder hname hentry hlink ih =>
    exact List.forall_mem_append.2 ⟨ih, List.forall_mem_singleton.2 hname⟩

theorem dropLast (h : f.Standing l) : f.Standing l.dropLast := by
  cases h with
  | root => exact .root
  | child hhere => rwa [List.dropLast_concat]

theorem not_link (h : f.Standing l) (target : Path) : f.entry? l ≠ some (.link target) := by
  cases h with
  | root => simp [Files.entry?]
  | child hhere hfolder hname hentry hlink =>
    rw [hentry]
    exact fun heq => hlink target (Option.some.inj heq)

/-- A walk that follows every link ends where no link is on the way. -/
theorem walk {links : Nat} {here : Location} {pieces : List String} (hhere : f.Standing here)
    (hpieces : ∀ piece ∈ pieces, '/' ∉ piece.toList) (h : f.walk true links here pieces = .ok (.present at_)) :
    f.Standing at_ := by
  have htail {piece : String} {rest : List String} (hps : ∀ p ∈ piece :: rest, '/' ∉ p.toList) :
      ∀ p ∈ rest, '/' ∉ p.toList := fun p hp => hps p (List.mem_cons_of_mem piece hp)
  -- the cases of the walk: the end, an idle piece, a step up, a free name, a link, and a step down
  fun_induction Files.walk f true links here pieces with
  | case1 links here => cases h; exact hhere
  | case2 links here piece rest id hfolder hidle ih => exact ih hhere (htail hpieces) h
  | case3 links here rest id hfolder hidle ih => exact ih hhere.dropLast (htail hpieces) h
  | case4 => cases h
  | case5 => cases h
  | case6 links here piece rest id hfolder hidle hup target hlink hstop => cases hstop.2
  | case7 => cases h
  | case8 => cases h
  | case9 here piece rest id hfolder hidle hup target hlink hgo htext links ih =>
    have hstart : f.Standing (if target.isAbsolute = true then [] else here) := by
      split
      · exact .root
      · exact hhere
    refine ih hstart (fun p hp => ?_) h
    rcases List.mem_append.1 hp with htarget | hrest
    · exact Path.slash_not_mem_of_mem_pieces htarget
    · exact htail hpieces p hrest
  | case10 links here piece rest id hfolder hidle hup entry hlink hentry ih =>
    have hname : IsName piece := ⟨by simpa using hidle, hup, hpieces piece List.mem_cons_self⟩
    exact ih (.child hhere hfolder hname hentry hlink) (htail hpieces) h
  | case11 => cases h

/-- The names of a location lead to it. -/
theorem walk_append (h : f.Standing l) (follow : Bool) (links : Nat) (rest : List String) :
    f.walk follow links [] (l ++ rest) = f.walk follow links l rest := by
  induction h generalizing rest with
  | root => rfl
  | @child here name id entry hhere hfolder hname hentry hlink ih =>
    rw [List.append_assoc, List.singleton_append, ih, walk_down hfolder hname hentry hlink]

end Standing

/-! ## Section 5 - following an absolute path -/

section following
variable {f : Files} {p : Path} {l at_ : Location}

theorem isAbsolute_absolute (f : Files) (p : Path) : (f.absolute p).isAbsolute = true := by
  unfold absolute
  split
  · assumption
  · exact Path.isAbsolute_join (isAbsolute_canonical f.home) p

theorem resolve_iff_walk (h : p.isAbsolute = true) :
    f.resolve p = .ok at_ ↔ f.walk true maxLinks [] p.pieces = .ok (.present at_) := by
  rw [resolve, locate, if_neg (Path.ne_empty_of_isAbsolute h), if_pos h]
  cases f.walk true maxLinks [] p.pieces with
  | error fault => simp
  | ok site => cases site <;> simp

/-- Whatever an absolute path leads to stands in the tree. -/
theorem Standing.of_resolve (h : p.isAbsolute = true) (hat : f.resolve p = .ok at_) : f.Standing at_ :=
  Standing.root.walk (fun _ => Path.slash_not_mem_of_mem_pieces) ((resolve_iff_walk h).1 hat)

/-- What is read is decided by the place that a path leads to. -/
theorem readText_congr {q : Path} (h : f.resolve p = f.resolve q) : f.readText p = f.readText q := by
  unfold readText readBytes
  rw [h]

theorem walk_canonical (hl : ∀ name ∈ l, IsName name) (follow : Bool) (links : Nat) :
    f.walk follow links [] (canonical l).pieces = f.walk follow links [] l := by
  rw [pieces_canonical hl, walk_root_idle rfl]
  -- the root has one idle piece more
  split
  · next hroot => rw [hroot, walk_root_idle rfl]
  · rfl

/-- What stands in the tree is found by its canonical path. -/
theorem Standing.resolve_canonical (h : f.Standing l) : f.resolve (canonical l) = .ok l := by
  rw [resolve_iff_walk (isAbsolute_canonical l), walk_canonical h.names]
  have hend := h.walk_append true maxLinks []
  rw [List.append_nil] at hend
  rw [hend, Files.walk]

/-- What the canonical path of a name leads to is what has the name, unless that is a link. -/
theorem Standing.resolve_name {name : String} (h : f.Standing l) (hname : IsName name)
    (hat : f.resolve (canonical (l ++ [name])) = .ok at_) :
    (∃ target, f.entry? (l ++ [name]) = some (.link target)) ∨ at_ = l ++ [name] := by
  have hnames : ∀ n ∈ l ++ [name], IsName n :=
    List.forall_mem_append.2 ⟨h.names, List.forall_mem_singleton.2 hname⟩
  rw [resolve_iff_walk (isAbsolute_canonical _), walk_canonical hnames, h.walk_append] at hat
  rw [Files.walk] at hat
  split at hat
  · rw [if_neg (by simp [hname.leads]), if_neg hname.down] at hat
    -- behind the name the walk is at its end, whatever has the name
    cases hentry : f.entry? (l ++ [name]) with
    | none =>
      rw [hentry] at hat
      cases hat
    | some entry =>
      rw [hentry] at hat
      cases entry with
      | link target => exact .inl ⟨target, rfl⟩
      | file content =>
        dsimp only at hat
        rw [Files.walk] at hat
        cases hat
        exact .inr rfl
      | folder id =>
        dsimp only at hat
        rw [Files.walk] at hat
        cases hat
        exact .inr rfl
  · cases hat

end following

/-! ## Section 6 - what a path is normalized to -/

/-- The link that a path ends at, where the path as a whole leads nowhere: the name at its end,
    below the place that its parent leads to. -/
def stopsAt (f : Files) (p : Path) : Option Location :=
  match f.resolve (f.absolute p), (f.absolute p).parent?, (f.absolute p).fileName? with
  | .error _, some parent, some name =>
    match f.resolve parent with
    | .ok l =>
      match f.entry? (l ++ [name]) with
      | some (.link _) => some (l ++ [name])
      | _ => none
    | .error _ => none
  | _, _, _ => none

/-- A path that leads somewhere as it is has the normal form of that place. -/
theorem normalize_of_followed {f : Files} {p : Path} {l : Location} (h : f.resolve (f.absolute p) = .ok l) :
    f.normalize p = canonical l := by
  simp only [normalize, h]

/-- A path that leads somewhere as it is stops at no link. -/
theorem stopsAt_of_followed {f : Files} {p : Path} {l : Location} (h : f.resolve (f.absolute p) = .ok l) :
    f.stopsAt p = none := by
  simp only [stopsAt, h]

/-- A path stops at the name of a link in a folder. -/
theorem stopsAt_some {f : Files} {p : Path} {stop : Location} (h : f.stopsAt p = some stop) :
    (∀ name ∈ stop, IsName name) ∧ ∃ target, f.entry? stop = some (.link target) := by
  unfold stopsAt at h
  split at h
  · next parent name _ hparent hname =>
    split at h
    · next l hl =>
      split at h
      · next target hentry =>
        cases h
        -- the folder is what the parent leads to, and the parent is absolute as the path is
        have hl : f.Standing l := .of_resolve (Path.isAbsolute_parent (isAbsolute_absolute f p) hparent) hl
        have hisName := Path.isName_of_fileName? hname
        exact ⟨List.forall_mem_append.2 ⟨hl.names, List.forall_mem_singleton.2 hisName⟩, target, hentry⟩
      · cases h
    · cases h
  · cases h

/-- A path that leads somewhere by its normal form is normalized to the canonical path of that place,
    unless it stops at a link. -/
theorem normalize_of_resolve {f : Files} {p : Path} {at_ : Location} (h : f.resolve (f.normalize p) = .ok at_) :
    f.normalize p = canonical ((f.stopsAt p).getD at_) := by
  have hwhole := isAbsolute_absolute f p
  -- a canonical path leads to the place whose names it spells out
  have hback {l : Location} (hl : f.Standing l) (hnorm : f.normalize p = canonical l) (hstop : f.stopsAt p = none) :
      f.normalize p = canonical ((f.stopsAt p).getD at_) := by
    rw [hnorm, hl.resolve_canonical] at h
    cases h
    rw [hstop, hnorm, Option.getD_none]
  cases hat : f.resolve (f.absolute p) with
  | ok l => exact hback (.of_resolve hwhole hat) (normalize_of_followed hat) (stopsAt_of_followed hat)
  | error fault =>
    -- where the path is its own normal form, the normal form would lead nowhere
    have hself : f.normalize p ≠ f.absolute p := by
      intro heq
      rw [heq, hat] at h
      cases h
    cases hparent : (f.absolute p).parent? with
    | none => exact absurd (by simp only [normalize, hat, hparent]) hself
    | some parent =>
      -- from here on both follow the parent, and differ in what they make of the name
      cases hl : f.resolve parent with
      | error fault => exact absurd (by simp only [normalize, hat, hparent, hl]) hself
      | ok l =>
        have hstanding : f.Standing l := .of_resolve (Path.isAbsolute_parent hwhole hparent) hl
        cases hname : (f.absolute p).fileName? with
        | none =>
          refine hback hstanding ?_ ?_
          · simp only [normalize, hat, hparent, hl, hname]
          · simp only [stopsAt, hat, hparent, hname]
        | some name =>
          have hisName := Path.isName_of_fileName? hname
          have hnorm : f.normalize p = canonical (l ++ [name]) := by
            simp only [normalize, hat, hparent, hl, hname, join_canonical hstanding.names hisName]
          rw [hnorm] at h ⊢
          simp only [stopsAt, hat, hparent, hl, hname]
          rcases hstanding.resolve_name hisName h with ⟨target, hentry⟩ | rfl
          · rw [hentry]
            rfl
          · -- what has the name is the place itself, so that it does not matter what it is
            split <;> rfl

/-- Two paths that lead to one place by their normal forms have the same normal form unless only one
    of them stops at a link, or they stop at different ones. -/
theorem normalize_same_iff {f : Files} {p q : Path} {at_ : Location} (hp : f.resolve (f.normalize p) = .ok at_)
    (hq : f.resolve (f.normalize q) = .ok at_) :
    (f.normalize p).Same (f.normalize q) ↔ f.stopsAt p = f.stopsAt q := by
  have hnorm := normalize_of_resolve hp
  have hat : f.Standing at_ := by
    refine .of_resolve ?_ hp
    rw [hnorm]
    exact isAbsolute_canonical _
  have hnames (r : Path) : ∀ name ∈ (f.stopsAt r).getD at_, IsName name := by
    cases hstop : f.stopsAt r with
    | none => exact hat.names
    | some stop => exact (stopsAt_some hstop).1
  have hapart {r : Path} {stop : Location} (hstop : f.stopsAt r = some stop) : at_ ≠ stop := by
    rintro rfl
    obtain ⟨-, target, hlink⟩ := stopsAt_some hstop
    exact hat.not_link target hlink
  rw [hnorm, normalize_of_resolve hq, canonical_same_iff (hnames p) (hnames q)]
  cases hstop : f.stopsAt p with
  | none =>
    cases hstop' : f.stopsAt q with
    | none => simp
    | some stop' => simp [hapart hstop']
  | some stop =>
    cases hstop' : f.stopsAt q with
    | none => simp [(hapart hstop).symm]
    | some stop' => simp

end Files

end HotReload
