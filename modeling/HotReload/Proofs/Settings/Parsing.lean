import HotReload.Proofs.Settings.Texts

/-! # Documents and what they are read from

    A document that is read to its end shows a value of the grammar, spelled by the bytes that
    were read.  One that is not read to its end is cut where the reading stopped.

    Reading is bounded by a number of steps, so this is an induction on it.  Each of the three
    readers is looked at on its own: the lemma for it takes what is known of all three with one
    step less. -/

namespace HotReload

open Document

/-! ## Section 1 - what a document shows -/

mutual

/-- A document is the value that is spelled, as its readers see it. -/
inductive Document.Shows : Document → Json → Prop where
  | null (after : Mark) : Document.Shows (.null after) .null
  | bool (b : Bool) (after : Mark) : Document.Shows (.bool b after) (.bool b)
  | number {n : Scalar Number} {raw : List UInt8} (after : Mark) (h : NumberShown n raw) :
      Document.Shows (.number n after) (.number raw)
  | text {s : Scalar String} {raw : List UInt8} (after : Mark) (h : TextShown s raw) :
      Document.Shows (.text s after) (.text raw)
  | array {items : Items} {js : List Json} (before : Mark) (h : Items.Shows items js) :
      Document.Shows (.array before items) (.array js)
  | object {members : Members} {ms : List (List UInt8 × Json)} (before : Mark) (h : Members.Shows members ms) :
      Document.Shows (.object before members) (.object ms)

/-- The elements of an array are the ones that are spelled. -/
inductive Items.Shows : Items → List Json → Prop where
  | close (after : Mark) : Items.Shows (.close after) []
  | item {value : Document} {rest : Items} {j : Json} {js : List Json} (start : Mark) (h : Document.Shows value j)
      (more : Items.Shows rest js) : Items.Shows (.item start value rest) (j :: js)

/-- The members of an object are the ones that are spelled. -/
inductive Members.Shows : Members → List (List UInt8 × Json) → Prop where
  | close (after : Mark) : Members.Shows (.close after) []
  | member {key : Scalar String} {raw : List UInt8} {value : Document} {rest : Members} {j : Json}
      {ms : List (List UInt8 × Json)} (turn : Mark) (name : TextShown key raw) (h : Document.Shows value j)
      (more : Members.Shows rest ms) : Members.Shows (.member key turn value rest) ((raw, j) :: ms)

end

mutual

/-- Whatever is spelled can be skipped. -/
theorem Document.Shows.skip {d : Document} {j : Json} (h : d.Shows j) : d.skip = .ok () := by
  cases h with
  | null => rfl
  | bool => rfl
  | number _ hnumber => exact hnumber.skipped
  | text _ htext => exact htext.skipped
  | array _ hitems => exact hitems.skip
  | object _ hmembers => exact hmembers.skip

theorem Items.Shows.skip {items : Items} {js : List Json} (h : items.Shows js) : items.skip = .ok () := by
  cases h with
  | close => rfl
  | item _ hvalue hmore =>
    rw [Items.skip, hvalue.skip]
    exact hmore.skip

theorem Members.Shows.skip {members : Members} {ms : List (List UInt8 × Json)} (h : members.Shows ms) :
    members.skip = .ok () := by
  cases h with
  | close => rfl
  | member _ hname hvalue hmore =>
    rw [Members.skip, hname.skipped]
    simp only
    rw [hvalue.skip]
    exact hmore.skip

end

/-! ## Section 2 - white space, commas and words -/

theorem dropBlanks_split (c : ByteCursor) : ∃ gap, Blank gap ∧ c.bytes = gap ++ c.dropBlanks.bytes := by
  refine ⟨c.bytes.takeWhile isGap, ?_, ?_⟩
  · intro b hb
    exact List.mem_takeWhile_imp hb
  · have hdrop : c.dropBlanks.bytes = c.bytes.dropWhile isGap := ByteCursor.dropWhile_bytes _ _
    rw [hdrop, List.takeWhile_append_dropWhile]

theorem dropBlanks_of_bytes {c : ByteCursor} {gap rest : List UInt8} {b : UInt8} (h : c.bytes = gap ++ b :: rest)
    (hgap : Blank gap) (hb : isGap b = false) : c.dropBlanks.bytes = b :: rest := by
  apply ByteCursor.dropWhile_of_bytes h hgap
  intro b' hb'
  rw [List.head?_cons, Option.some.injEq] at hb'
  subst hb'
  exact hb

theorem Blank.append {gap gap' : List UInt8} (h : Blank gap) (h' : Blank gap') : Blank (gap ++ gap') := by
  intro b hb
  rcases List.mem_append.1 hb with hb | hb
  · exact h b hb
  · exact h' b hb

theorem Lead.append {first : Bool} {lead gap : List UInt8} (h : Lead first lead) (hgap : Blank gap) :
    Lead first (lead ++ gap) := by
  cases h with
  | first hlead => exact .first (hlead.append hgap)
  | comma hfront hback =>
    rw [List.append_assoc, List.cons_append]
    exact .comma hfront (hback.append hgap)

/-- The cursor at an element, from where the element before it ended. -/
def atElement (first : Bool) (c : ByteCursor) : ByteCursor :=
  if first then c.dropBlanks else c.dropBlanks.next.dropBlanks

theorem atElement_eq (first : Bool) (c : ByteCursor) :
    (if first = true then c.dropBlanks else c.dropBlanks.next.dropBlanks) = atElement first c := rfl

/-- What is passed over before an element is white space, and a comma if there was one before. -/
theorem lead_of_passed {c : ByteCursor} {b : UInt8} {first : Bool} (hpeek : c.dropBlanks.peek? = some b)
    (hcomma : ¬ ((!first) = true ∧ b ≠ byteOf ',')) :
    ∃ lead, Lead first lead ∧ c.bytes = lead ++ (atElement first c).bytes := by
  obtain ⟨gap, hgap, hbytes⟩ := dropBlanks_split c
  cases first with
  | true => exact ⟨gap, .first hgap, hbytes⟩
  | false =>
    have hb : b = byteOf ',' := by
      by_contra hne
      exact hcomma ⟨rfl, hne⟩
    obtain ⟨gap', hgap', hnext⟩ := dropBlanks_split c.dropBlanks.next
    refine ⟨_, .comma hgap hgap', ?_⟩
    rw [hbytes, ByteCursor.bytes_of_peek? hpeek, hnext, hb]
    simp [atElement]

/-- In turn all of it is passed over.  What was met first is the element itself, or the comma before it. -/
theorem atElement_of_lead {c : ByteCursor} {lead rest : List UInt8} {b : UInt8} {first : Bool} (h : Lead first lead)
    (hbytes : c.bytes = lead ++ b :: rest) (hb : isGap b = false) :
    (atElement first c).bytes = b :: rest ∧
      ∃ met, c.dropBlanks.peek? = some met ∧ ¬ ((!first) = true ∧ met ≠ byteOf ',') ∧ (met = b ∨ met = byteOf ',') := by
  cases h with
  | first hlead =>
    have hdrop := dropBlanks_of_bytes hbytes hlead hb
    exact ⟨hdrop, b, ByteCursor.peek?_of_bytes hdrop, by simp, .inl rfl⟩
  | comma hfront hback =>
    rw [List.append_assoc, List.cons_append] at hbytes
    have hdrop := dropBlanks_of_bytes hbytes hfront (by decide)
    exact ⟨dropBlanks_of_bytes (ByteCursor.next_of_bytes hdrop) hback hb, _, ByteCursor.peek?_of_bytes hdrop,
      by simp, .inr rfl⟩

theorem readWord_sound {c after : ByteCursor} {word : List Char} (h : readWord c word = .ok after) :
    c.bytes = word.map byteOf ++ after.bytes := by
  induction word generalizing c with
  | nil =>
    cases h
    rfl
  | cons letter word ih =>
    unfold readWord at h
    split at h
    · cases h
    next b hpeek =>
    split at h
    · next hletter =>
      rw [ByteCursor.bytes_of_peek? hpeek, ih h, hletter]
      rfl
    · cases h

theorem readWord_complete {c : ByteCursor} {word : List Char} {rest : List UInt8}
    (hbytes : c.bytes = word.map byteOf ++ rest) : ∃ after, readWord c word = .ok after ∧ after.bytes = rest := by
  induction word generalizing c with
  | nil => exact ⟨c, rfl, hbytes⟩
  | cons letter word ih =>
    rw [readWord, ByteCursor.peek?_of_bytes hbytes]
    simp only [if_true]
    exact ih (ByteCursor.next_of_bytes hbytes)

/-! ## Section 3 - what is read is spelled -/

/-- Values that are read within a number of steps are spelled by what was read. -/
def ReadsSpelled (steps : Nat) : Prop :=
  ∀ (c : ByteCursor) (d : Document) (after : ByteCursor), Document.read c steps = (d, some after) →
    ∃ gap body j, Blank gap ∧ Json.Spelled j body ∧ c.bytes = gap ++ (body ++ after.bytes) ∧ d.Shows j

/-- So are elements of arrays. -/
def ReadsItemsSpelled (steps : Nat) : Prop :=
  ∀ (c : ByteCursor) (first : Bool) (items : Items) (after : ByteCursor),
    Document.readItems c first steps = (items, some after) →
      ∃ js body, Json.ItemsSpelled first js body ∧ c.bytes = body ++ after.bytes ∧ items.Shows js

/-- So are members of objects. -/
def ReadsMembersSpelled (steps : Nat) : Prop :=
  ∀ (c : ByteCursor) (first : Bool) (members : Members) (after : ByteCursor),
    Document.readMembers c first steps = (members, some after) →
      ∃ ms body, Json.MembersSpelled first ms body ∧ c.bytes = body ++ after.bytes ∧ members.Shows ms

theorem ofWord_sound {value : Mark → Document} {c after : ByteCursor} {rest : String} {d : Document}
    (h : ofWord value c rest = (d, some after)) :
    c.bytes = wordBytes rest ++ after.bytes ∧ d = value after.mark := by
  unfold ofWord at h
  split at h
  · next after' hread =>
    rw [Prod.mk.injEq, Option.some.injEq] at h
    obtain ⟨rfl, rfl⟩ := h
    exact ⟨readWord_sound hread, rfl⟩
  · cases h

theorem ofScalar_sound {α : Type} {build : Scalar α → Mark → Document} {c after : ByteCursor}
    {found : Scalar α × Except DocumentFault ByteCursor} {d : Document}
    (h : ofScalar build c found = (d, some after)) : found.2 = .ok after ∧ d = build found.1 after.mark := by
  obtain ⟨scalar, outcome⟩ := found
  unfold ofScalar at h
  cases outcome with
  | error fault => cases h
  | ok after' =>
    rw [Prod.mk.injEq, Option.some.injEq] at h
    obtain ⟨rfl, rfl⟩ := h
    exact ⟨rfl, rfl⟩

theorem reads_spelled {steps : Nat} (hitems : ReadsItemsSpelled steps) (hmembers : ReadsMembersSpelled steps) :
    ReadsSpelled (steps + 1) := by
  intro c d after h
  obtain ⟨gap, hgap, hbytes⟩ := dropBlanks_split c
  -- It remains to find the value at the first byte that is no white space.
  suffices hvalue : ∃ body j, Json.Spelled j body ∧ c.dropBlanks.bytes = body ++ after.bytes ∧ d.Shows j by
    obtain ⟨body, j, hspelled, hbody, hshows⟩ := hvalue
    exact ⟨gap, body, j, hgap, hspelled, by rw [hbytes, hbody], hshows⟩
  rw [Document.read] at h
  simp only at h
  split at h
  · cases h
  next b hpeek =>
  have hcons := ByteCursor.bytes_of_peek? hpeek
  split at h
  · next hnull =>
    obtain ⟨hrest, rfl⟩ := ofWord_sound h
    exact ⟨_, _, .null, by rw [hcons, hrest, hnull]; rfl, .null _⟩
  split at h
  · next htrue =>
    obtain ⟨hrest, rfl⟩ := ofWord_sound h
    exact ⟨_, _, .boolTrue, by rw [hcons, hrest, htrue]; rfl, .bool _ _⟩
  split at h
  · next hfalse =>
    obtain ⟨hrest, rfl⟩ := ofWord_sound h
    exact ⟨_, _, .boolFalse, by rw [hcons, hrest, hfalse]; rfl, .bool _ _⟩
  split at h
  · next hminus =>
    obtain ⟨hskip, rfl⟩ := ofScalar_sound h
    obtain ⟨raw, hraw, hrest, hshown⟩ := numberAt_sound hskip
    exact ⟨_, _, .number (.negative hraw), by rw [hcons, hrest, hminus]; rfl, .number _ hshown⟩
  split at h
  · obtain ⟨hskip, rfl⟩ := ofScalar_sound h
    obtain ⟨raw, hraw, hrest, hshown⟩ := numberAt_sound hskip
    exact ⟨_, _, .number (.positive hraw), hrest, .number _ hshown⟩
  split at h
  · next hquote =>
    obtain ⟨hskip, rfl⟩ := ofScalar_sound h
    obtain ⟨raw, hraw, hrest, hshown⟩ := textAt_sound hskip
    exact ⟨_, _, .text hraw, by rw [hcons, hrest, hquote]; simp, .text _ hshown⟩
  split at h
  · next hbracket =>
    rw [Prod.mk.injEq] at h
    obtain ⟨rfl, hafter⟩ := h
    obtain ⟨js, body, hspelled, hrest, hshows⟩ := hitems c.dropBlanks.next true _ after (Prod.ext rfl hafter)
    exact ⟨_, _, .array hspelled, by rw [hcons, hrest, hbracket]; rfl, .array _ hshows⟩
  split at h
  · next hbrace =>
    rw [Prod.mk.injEq] at h
    obtain ⟨rfl, hafter⟩ := h
    obtain ⟨ms, body, hspelled, hrest, hshows⟩ := hmembers c.dropBlanks.next true _ after (Prod.ext rfl hafter)
    exact ⟨_, _, .object hspelled, by rw [hcons, hrest, hbrace]; rfl, .object _ hshows⟩
  · cases h

theorem reads_items_spelled {steps : Nat} (hread : ReadsSpelled steps) (hitems : ReadsItemsSpelled steps) :
    ReadsItemsSpelled (steps + 1) := by
  intro c first items after h
  obtain ⟨gap, hgap, hbytes⟩ := dropBlanks_split c
  rw [Document.readItems] at h
  simp only at h
  split at h
  · cases h
  next b hpeek =>
  split at h
  · next hclose =>
    rw [Prod.mk.injEq, Option.some.injEq] at h
    obtain ⟨rfl, rfl⟩ := h
    refine ⟨_, _, .close hgap, ?_, .close _⟩
    rw [hbytes, ByteCursor.bytes_of_peek? hpeek, hclose]
    simp
  split at h
  · cases h
  next hcomma =>
  obtain ⟨lead, hlead, hpassed⟩ := lead_of_passed hpeek hcomma
  rw [atElement_eq] at h
  split at h
  · cases h
  split at h
  · cases h
  split at h
  · cases h
  next value between hvalue =>
  rw [Prod.mk.injEq] at h
  obtain ⟨rfl, hafter⟩ := h
  obtain ⟨gap', body, j, hgap', hspelled, hrest, hshows⟩ := hread _ _ _ hvalue
  obtain ⟨js, tail, htail, hend, hmore⟩ := hitems between false _ after (Prod.ext rfl hafter)
  refine ⟨j :: js, _, .item (hlead.append hgap') hspelled htail, ?_, .item _ hshows hmore⟩
  rw [hpassed, hrest, hend]
  simp

theorem reads_members_spelled {steps : Nat} (hread : ReadsSpelled steps) (hmembers : ReadsMembersSpelled steps) :
    ReadsMembersSpelled (steps + 1) := by
  intro c first members after h
  obtain ⟨gap, hgap, hbytes⟩ := dropBlanks_split c
  rw [Document.readMembers] at h
  simp only at h
  split at h
  · cases h
  next b hpeek =>
  split at h
  · next hclose =>
    rw [Prod.mk.injEq, Option.some.injEq] at h
    obtain ⟨rfl, rfl⟩ := h
    refine ⟨_, _, .close hgap, ?_, .close _⟩
    rw [hbytes, ByteCursor.bytes_of_peek? hpeek, hclose]
    simp
  split at h
  · cases h
  next hcomma =>
  obtain ⟨lead, hlead, hpassed⟩ := lead_of_passed hpeek hcomma
  rw [atElement_eq] at h
  split at h
  · cases h
  next b' hfirst =>
  split at h
  · cases h
  split at h
  · cases h
  next hquote =>
  split at h
  · cases h
  next key behind hkey =>
  split at h
  · cases h
  next b'' hturn =>
  split at h
  · cases h
  next hcolon =>
  split at h
  · cases h
  next value between hvalue =>
  rw [Prod.mk.injEq] at h
  obtain ⟨rfl, hafter⟩ := h
  -- The key, its colon, the value and the other members, in this order.
  rw [ne_eq, not_not] at hquote hcolon
  subst hquote hcolon
  obtain ⟨raw, hraw, hname, hshown⟩ := textAt_sound (congrArg Prod.snd hkey)
  rw [hkey] at hshown
  obtain ⟨before, hbefore, hturned⟩ := dropBlanks_split behind
  obtain ⟨gap', body, j, hgap', hspelled, hrest, hshows⟩ := hread _ _ _ hvalue
  obtain ⟨ms, tail, htail, hend, hmore⟩ := hmembers between false _ after (Prod.ext rfl hafter)
  refine ⟨(raw, j) :: ms, _, .member hlead hraw hbefore hgap' hspelled htail, ?_, .member _ hshown hshows hmore⟩
  have hkeyed : (atElement first c).next.bytes = raw ++ byteOf '"' :: behind.bytes := hname
  rw [hpassed, ByteCursor.bytes_of_peek? hfirst, hkeyed, hturned, ByteCursor.bytes_of_peek? hturn, hrest, hend]
  simp

theorem reads_spelled_all (steps : Nat) :
    ReadsSpelled steps ∧ ReadsItemsSpelled steps ∧ ReadsMembersSpelled steps := by
  induction steps with
  | zero =>
    refine ⟨?_, ?_, ?_⟩
    · intro c d after h
      cases h
    · intro c first items after h
      cases h
    · intro c first members after h
      cases h
  | succ steps ih =>
    obtain ⟨hread, hitems, hmembers⟩ := ih
    exact ⟨reads_spelled hitems hmembers, reads_items_spelled hread hitems, reads_members_spelled hread hmembers⟩

/-- A document that is read to its end shows a value that is spelled by what was read. -/
theorem read_sound {c after : ByteCursor} {d : Document} {steps : Nat} (h : Document.read c steps = (d, some after)) :
    ∃ gap body j, Blank gap ∧ Json.Spelled j body ∧ c.bytes = gap ++ (body ++ after.bytes) ∧ d.Shows j :=
  (reads_spelled_all steps).1 c d after h

/-! ## Section 4 - documents that end too early -/

/-- The elements of an array end before its bracket. -/
def Items.Cut : Items → Prop
  | .close _ => False
  | .item _ _ rest => rest.Cut
  | .stop .. => True

/-- The members of an object end before its brace. -/
def Members.Cut : Members → Prop
  | .close _ => False
  | .member _ _ _ rest => rest.Cut
  | .stop .. => True

theorem readItems_cut {c : ByteCursor} {first : Bool} {steps : Nat} {items : Items}
    (h : Document.readItems c first steps = (items, none)) : items.Cut := by
  induction steps generalizing c first items with
  | zero =>
    cases h
    exact trivial
  | succ steps ih =>
    rw [Document.readItems] at h
    simp only at h
    split at h
    · cases h
      exact trivial
    split at h
    · cases h
    split at h
    · cases h
      exact trivial
    split at h
    · cases h
      exact trivial
    split at h
    · cases h
      exact trivial
    split at h
    · cases h
      exact trivial
    · rw [Prod.mk.injEq] at h
      obtain ⟨rfl, hnone⟩ := h
      rw [Items.Cut]
      exact ih (Prod.ext rfl hnone)

theorem readMembers_cut {c : ByteCursor} {first : Bool} {steps : Nat} {members : Members}
    (h : Document.readMembers c first steps = (members, none)) : members.Cut := by
  induction steps generalizing c first members with
  | zero =>
    cases h
    exact trivial
  | succ steps ih =>
    rw [Document.readMembers] at h
    simp only at h
    split at h
    · cases h
      exact trivial
    split at h
    · cases h
    split at h
    · cases h
      exact trivial
    split at h
    · cases h
      exact trivial
    split at h
    · cases h
      exact trivial
    split at h
    · cases h
      exact trivial
    split at h
    · cases h
      exact trivial
    split at h
    · cases h
      exact trivial
    split at h
    · cases h
      exact trivial
    split at h
    · cases h
      exact trivial
    · -- This member was read, so the break is behind it.
      rw [Prod.mk.injEq] at h
      obtain ⟨rfl, hnone⟩ := h
      rw [Members.Cut]
      exact ih (Prod.ext rfl hnone)

theorem ofWord_none {value : Mark → Document} {c : ByteCursor} {rest : String} {d : Document}
    (h : ofWord value c rest = (d, none)) : ∃ fault, d = .broken fault := by
  unfold ofWord at h
  split at h
  · cases h
  · next fault _ =>
    rw [Prod.mk.injEq] at h
    exact ⟨fault, h.1.symm⟩

theorem ofScalar_fst {α : Type} {build : Scalar α → Mark → Document} {c : ByteCursor}
    {found : Scalar α × Except DocumentFault ByteCursor} {d : Document} {after : Option ByteCursor}
    (h : ofScalar build c found = (d, after)) : ∃ mark, d = build found.1 mark := by
  obtain ⟨scalar, outcome⟩ := found
  unfold ofScalar at h
  cases outcome with
  | error fault =>
    rw [Prod.mk.injEq] at h
    exact ⟨c.mark, h.1.symm⟩
  | ok after' =>
    rw [Prod.mk.injEq] at h
    exact ⟨after'.mark, h.1.symm⟩

/-- A document that is not read to its end is no array and no object, or it is cut. -/
inductive Document.Unfinished : Document → Prop where
  | number (n : Scalar Number) (after : Mark) : Document.Unfinished (.number n after)
  | text (s : Scalar String) (after : Mark) : Document.Unfinished (.text s after)
  | broken (fault : DocumentFault) : Document.Unfinished (.broken fault)
  | array {items : Items} (before : Mark) (h : items.Cut) : Document.Unfinished (.array before items)
  | object {members : Members} (before : Mark) (h : members.Cut) : Document.Unfinished (.object before members)

theorem read_unfinished {c : ByteCursor} {steps : Nat} {d : Document} (h : Document.read c steps = (d, none)) :
    d.Unfinished := by
  cases steps with
  | zero =>
    cases h
    exact .broken _
  | succ steps =>
    rw [Document.read] at h
    simp only at h
    split at h
    · cases h
      exact .broken _
    split at h
    · obtain ⟨fault, rfl⟩ := ofWord_none h
      exact .broken fault
    split at h
    · obtain ⟨fault, rfl⟩ := ofWord_none h
      exact .broken fault
    split at h
    · obtain ⟨fault, rfl⟩ := ofWord_none h
      exact .broken fault
    split at h
    · obtain ⟨mark, rfl⟩ := ofScalar_fst h
      exact .number _ _
    split at h
    · obtain ⟨mark, rfl⟩ := ofScalar_fst h
      exact .number _ _
    split at h
    · obtain ⟨mark, rfl⟩ := ofScalar_fst h
      exact .text _ _
    split at h
    · rw [Prod.mk.injEq] at h
      obtain ⟨rfl, hnone⟩ := h
      exact .array _ (readItems_cut (Prod.ext rfl hnone))
    split at h
    · rw [Prod.mk.injEq] at h
      obtain ⟨rfl, hnone⟩ := h
      exact .object _ (readMembers_cut (Prod.ext rfl hnone))
    · cases h
      exact .broken _

end HotReload
