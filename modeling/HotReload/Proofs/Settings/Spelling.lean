import HotReload.Proofs.Settings.Parsing

/-! # Spellings of values

    Every spelling of a value is read to its end, whatever follows it that does not go on with
    it, and the document shows the value.  So the bytes of a file are read as a value exactly if
    they spell one.

    The induction is on the number of steps again, which the length of the spelling bounds. -/

namespace HotReload

open Document

/-! ## Section 1 - what is spelled is read -/

/-- Spellings that are no longer than a number of steps are read within it. -/
def ReadsAll (steps : Nat) : Prop :=
  ∀ (c : ByteCursor) (gap body rest : List UInt8) (j : Json), Blank gap → Json.Spelled j body →
    c.bytes = gap ++ (body ++ rest) → Clear goesOn rest → body.length ≤ steps →
      ∃ d after, Document.read c steps = (d, some after) ∧ after.bytes = rest ∧ d.Shows j

/-- So are elements of arrays. -/
def ReadsAllItems (steps : Nat) : Prop :=
  ∀ (c : ByteCursor) (first : Bool) (body rest : List UInt8) (js : List Json), Json.ItemsSpelled first js body →
    c.bytes = body ++ rest → body.length ≤ steps →
      ∃ items after, Document.readItems c first steps = (items, some after) ∧ after.bytes = rest ∧ items.Shows js

/-- So are members of objects. -/
def ReadsAllMembers (steps : Nat) : Prop :=
  ∀ (c : ByteCursor) (first : Bool) (body rest : List UInt8) (ms : List (List UInt8 × Json)),
    Json.MembersSpelled first ms body → c.bytes = body ++ rest → body.length ≤ steps →
      ∃ members after, Document.readMembers c first steps = (members, some after) ∧ after.bytes = rest ∧
        members.Shows ms

theorem not_letter_of_isDigit {b : UInt8} (h : isDigit b = true) :
    b ≠ byteOf 'n' ∧ b ≠ byteOf 't' ∧ b ≠ byteOf 'f' ∧ b ≠ byteOf '-' ∧ isGap b = false ∧ b ≠ byteOf ']' := by
  refine ⟨?_, ?_, ?_, ?_, ?_, ?_⟩
  · rintro rfl
    exact absurd h (by decide)
  · rintro rfl
    exact absurd h (by decide)
  · rintro rfl
    exact absurd h (by decide)
  · rintro rfl
    exact absurd h (by decide)
  · cases hgap : isGap b with
    | false => rfl
    | true =>
      simp only [isGap, decide_eq_true_eq] at hgap
      rcases hgap with rfl | rfl | rfl | rfl
      all_goals exact absurd h (by decide)
  · rintro rfl
    exact absurd h (by decide)

theorem IsUnsigned.head {raw : List UInt8} (h : IsUnsigned raw) : ∃ b rest, raw = b :: rest ∧ isDigit b = true := by
  cases h with
  | @parts whole fraction exponent hwhole =>
    obtain ⟨b, more, hcons⟩ := List.exists_cons_of_ne_nil hwhole.nonempty
    refine ⟨b, more ++ (fraction ++ exponent), by rw [hcons]; rfl, ?_⟩
    exact hwhole.decimal b (by rw [hcons]; exact List.mem_cons_self)

/-- A value starts with a byte that is neither white space nor the bracket of an array. -/
theorem Json.Spelled.head {j : Json} {body : List UInt8} (h : Json.Spelled j body) :
    ∃ b rest, body = b :: rest ∧ isGap b = false ∧ b ≠ byteOf ']' := by
  cases h with
  | null => exact ⟨byteOf 'n', wordBytes "ull", rfl, by decide, by decide⟩
  | boolTrue => exact ⟨byteOf 't', wordBytes "rue", rfl, by decide, by decide⟩
  | boolFalse => exact ⟨byteOf 'f', wordBytes "alse", rfl, by decide, by decide⟩
  | number hnumber =>
    cases hnumber with
    | positive hraw =>
      obtain ⟨b, rest, hcons, hdigit⟩ := hraw.head
      obtain ⟨-, -, -, -, hgap, hbracket⟩ := not_letter_of_isDigit hdigit
      exact ⟨b, rest, hcons, hgap, hbracket⟩
    | negative => exact ⟨byteOf '-', _, rfl, by decide, by decide⟩
  | text => exact ⟨byteOf '"', _, rfl, by decide, by decide⟩
  | array => exact ⟨byteOf '[', _, rfl, by decide, by decide⟩
  | object => exact ⟨byteOf '\x7b', _, rfl, by decide, by decide⟩

theorem goesOn_of_isGap {b : UInt8} (h : isGap b = true) : goesOn b = false := by
  simp only [isGap, decide_eq_true_eq] at h
  rcases h with rfl | rfl | rfl | rfl
  all_goals decide

/-- What follows an element does not go on with a number. -/
theorem clear_of_gap {gap rest : List UInt8} {b : UInt8} (hgap : Blank gap) (hb : goesOn b = false) :
    Clear goesOn (gap ++ b :: rest) := by
  intro b' hb'
  cases gap with
  | nil =>
    rw [List.nil_append, List.head?_cons, Option.some.injEq] at hb'
    rw [← hb']
    exact hb
  | cons g gap =>
    rw [List.cons_append, List.head?_cons, Option.some.injEq] at hb'
    rw [← hb']
    exact goesOn_of_isGap (hgap g List.mem_cons_self)

theorem Json.ItemsSpelled.clear {js : List Json} {body rest : List UInt8} (h : Json.ItemsSpelled false js body) :
    Clear goesOn (body ++ rest) := by
  cases h with
  | close hgap =>
    rw [List.append_assoc]
    exact clear_of_gap hgap (by decide)
  | item hfront =>
    cases hfront with
    | comma hgap =>
      rw [List.append_assoc, List.append_assoc]
      exact clear_of_gap hgap (by decide)

theorem Json.MembersSpelled.clear {ms : List (List UInt8 × Json)} {body rest : List UInt8}
    (h : Json.MembersSpelled false ms body) : Clear goesOn (body ++ rest) := by
  cases h with
  | close hgap =>
    rw [List.append_assoc]
    exact clear_of_gap hgap (by decide)
  | member hfront =>
    cases hfront with
    | comma hgap =>
      rw [List.append_assoc, List.append_assoc]
      exact clear_of_gap hgap (by decide)

theorem ofWord_complete (value : Mark → Document) {c : ByteCursor} (word : String) {rest : List UInt8}
    (hbytes : c.bytes = wordBytes word ++ rest) :
    ∃ after, ofWord value c word = (value after.mark, some after) ∧ after.bytes = rest := by
  obtain ⟨after, hread, hafter⟩ := readWord_complete hbytes
  refine ⟨after, ?_, hafter⟩
  rw [ofWord, hread]

theorem ofScalar_complete {α : Type} {build : Scalar α → Mark → Document} {c after : ByteCursor}
    {found : Scalar α × Except DocumentFault ByteCursor} (h : found.2 = .ok after) :
    ofScalar build c found = (build found.1 after.mark, some after) := by
  obtain ⟨scalar, outcome⟩ := found
  change outcome = _ at h
  rw [h]
  rfl

theorem readsAll_succ {steps : Nat} (hitems : ReadsAllItems steps) (hmembers : ReadsAllMembers steps) :
    ReadsAll (steps + 1) := by
  intro c gap body rest j hgap hspelled hbytes hrest hsteps
  obtain ⟨b, more, hcons, hb, -⟩ := hspelled.head
  have hdrop : c.dropBlanks.bytes = body ++ rest := by
    rw [hcons] at hbytes ⊢
    exact dropBlanks_of_bytes hbytes hgap hb
  rw [Document.read]
  simp only
  -- The first byte tells the kind of the value, so every test before the one for this kind fails.
  cases hspelled with
  | null =>
    rw [ByteCursor.peek?_of_bytes hdrop]
    obtain ⟨after, hread, hafter⟩ := ofWord_complete .null "ull" (ByteCursor.next_of_bytes hdrop)
    exact ⟨_, after, hread, hafter, .null _⟩
  | boolTrue =>
    rw [ByteCursor.peek?_of_bytes hdrop]
    obtain ⟨after, hread, hafter⟩ :=
      ofWord_complete (.bool true) "rue" (ByteCursor.next_of_bytes hdrop)
    exact ⟨_, after, hread, hafter, .bool _ _⟩
  | boolFalse =>
    rw [ByteCursor.peek?_of_bytes hdrop]
    obtain ⟨after, hread, hafter⟩ :=
      ofWord_complete (.bool false) "alse" (ByteCursor.next_of_bytes hdrop)
    exact ⟨_, after, hread, hafter, .bool _ _⟩
  | number hnumber =>
    cases hnumber with
    | @positive raw hraw =>
      obtain ⟨d, digits, hd, hdigit⟩ := hraw.head
      obtain ⟨hn, ht, hf, hminus, -, -⟩ := not_letter_of_isDigit hdigit
      have hpeek : c.dropBlanks.peek? = some d := by
        rw [ByteCursor.peek?, hdrop, hd]
        rfl
      obtain ⟨after, hskip, hafter, hshown⟩ := numberAt_complete true hraw hdrop hrest
      rw [hpeek]
      simp only
      rw [if_neg hn, if_neg ht, if_neg hf, if_neg hminus, if_pos hdigit, ofScalar_complete hskip]
      exact ⟨_, after, rfl, hafter, .number _ hshown⟩
    | @negative raw hraw =>
      obtain ⟨after, hskip, hafter, hshown⟩ := numberAt_complete false hraw (ByteCursor.next_of_bytes hdrop) hrest
      rw [ByteCursor.peek?_of_bytes hdrop]
      simp only
      rw [if_neg (by decide), if_neg (by decide), if_neg (by decide), if_pos trivial, ofScalar_complete hskip]
      exact ⟨_, after, rfl, hafter, .number _ hshown⟩
  | @text raw hraw =>
    have hquoted : c.dropBlanks.next.bytes = raw ++ byteOf '"' :: rest := by
      rw [ByteCursor.next_of_bytes hdrop]
      simp
    obtain ⟨after, hskip, hafter, hshown⟩ := textAt_complete hraw hquoted
    rw [ByteCursor.peek?_of_bytes hdrop]
    simp only
    rw [if_neg (by decide), if_neg (by decide), if_neg (by decide), if_neg (by decide), if_neg (by decide),
      if_pos trivial, ofScalar_complete hskip]
    exact ⟨_, after, rfl, hafter, .text _ hshown⟩
  | @array items body hspelled =>
    rw [List.length_cons] at hsteps
    obtain ⟨found, after, hread, hafter, hshows⟩ :=
      hitems c.dropBlanks.next true body rest items hspelled (ByteCursor.next_of_bytes hdrop) (by omega)
    rw [ByteCursor.peek?_of_bytes hdrop]
    simp only
    rw [if_neg (by decide), if_neg (by decide), if_neg (by decide), if_neg (by decide), if_neg (by decide),
      if_neg (by decide), if_pos trivial, hread]
    exact ⟨_, after, rfl, hafter, .array _ hshows⟩
  | @object members body hspelled =>
    rw [List.length_cons] at hsteps
    obtain ⟨found, after, hread, hafter, hshows⟩ :=
      hmembers c.dropBlanks.next true body rest members hspelled (ByteCursor.next_of_bytes hdrop) (by omega)
    rw [ByteCursor.peek?_of_bytes hdrop]
    simp only
    rw [if_neg (by decide), if_neg (by decide), if_neg (by decide), if_neg (by decide), if_neg (by decide),
      if_neg (by decide), if_neg (by decide), if_pos trivial, hread]
    exact ⟨_, after, rfl, hafter, .object _ hshows⟩

theorem Json.ItemsSpelled.length_pos {first : Bool} {js : List Json} {body : List UInt8}
    (h : Json.ItemsSpelled first js body) : 0 < body.length := by
  cases h with
  | close =>
    rw [List.length_append, List.length_singleton]
    omega
  | item _ hvalue =>
    obtain ⟨b, more, hcons, -⟩ := hvalue.head
    rw [hcons, List.length_append, List.length_append, List.length_cons]
    omega

theorem readsAllItems_succ {steps : Nat} (hread : ReadsAll steps) (hitems : ReadsAllItems steps) :
    ReadsAllItems (steps + 1) := by
  intro c first body rest js hspelled hbytes hsteps
  cases hspelled with
  | @close _ gap hgap =>
    rw [List.append_assoc] at hbytes
    have hdrop := dropBlanks_of_bytes hbytes hgap (by decide)
    rw [Document.readItems]
    simp only
    rw [ByteCursor.peek?_of_bytes hdrop]
    exact ⟨_, _, rfl, ByteCursor.next_of_bytes hdrop, .close _⟩
  | @item _ j js lead value tail hfront hvalue htail =>
    obtain ⟨b, more, hcons, hb, hbracket⟩ := hvalue.head
    have hpositive := htail.length_pos
    rw [List.length_append, List.length_append] at hsteps
    have hvalued : value.length = more.length + 1 := by rw [hcons, List.length_cons]
    have hfull : c.bytes = lead ++ b :: (more ++ (tail ++ rest)) := by
      rw [hbytes, hcons]
      simp
    obtain ⟨helement, met, hpeek, hcomma, hmet⟩ := atElement_of_lead hfront hfull hb
    have hopen : met ≠ byteOf ']' := by
      rcases hmet with rfl | rfl
      · exact hbracket
      · decide
    obtain ⟨d, between, hd, hbetween, hshows⟩ := hread (atElement first c) [] value (tail ++ rest) j
      (fun b hb => absurd hb List.not_mem_nil) hvalue (by rw [helement, hcons]; rfl) htail.clear (by omega)
    obtain ⟨items, after, hmore, hafter, hshows'⟩ := hitems between false tail rest js htail hbetween (by omega)
    refine ⟨.item (atElement first c).ahead d items, after, ?_, hafter, .item _ hshows hshows'⟩
    rw [Document.readItems]
    simp only
    rw [hpeek]
    simp only
    rw [if_neg hopen, if_neg hcomma, atElement_eq, ByteCursor.peek?_of_bytes helement]
    simp only
    rw [if_neg hbracket, hd]
    simp only
    rw [hmore]

theorem readsAllMembers_succ {steps : Nat} (hread : ReadsAll steps) (hmembers : ReadsAllMembers steps) :
    ReadsAllMembers (steps + 1) := by
  intro c first body rest ms hspelled hbytes hsteps
  cases hspelled with
  | @close _ gap hgap =>
    rw [List.append_assoc] at hbytes
    have hdrop := dropBlanks_of_bytes hbytes hgap (by decide)
    rw [Document.readMembers]
    simp only
    rw [ByteCursor.peek?_of_bytes hdrop]
    exact ⟨_, _, rfl, ByteCursor.next_of_bytes hdrop, .close _⟩
  | @member _ raw j ms lead gap gap' value tail hfront hraw hgap hgap' hvalue htail =>
    simp only [List.length_append, List.length_cons] at hsteps
    have hfull : c.bytes = lead ++ byteOf '"' ::
        (raw ++ byteOf '"' :: (gap ++ byteOf ':' :: (gap' ++ (value ++ (tail ++ rest))))) := by
      rw [hbytes]
      simp
    obtain ⟨helement, met, hpeek, hcomma, hmet⟩ := atElement_of_lead hfront hfull (by decide)
    have hopen : met ≠ byteOf '\x7d' := by
      rcases hmet with rfl | rfl
      · decide
      · decide
    -- The key, its colon, the value and the other members, in this order.
    obtain ⟨behind, hkey, hbehind, hshown⟩ := textAt_complete hraw (ByteCursor.next_of_bytes helement)
    have hturn := dropBlanks_of_bytes hbehind hgap (by decide)
    obtain ⟨d, between, hd, hbetween, hshows⟩ := hread behind.dropBlanks.next gap' value (tail ++ rest) j hgap' hvalue
      (ByteCursor.next_of_bytes hturn) htail.clear (by omega)
    obtain ⟨members, after, hmore, hafter, hshows'⟩ :=
      hmembers between false tail rest ms htail hbetween (by omega)
    have htext : textAt (atElement first c).next = ((textAt (atElement first c).next).1, .ok behind) :=
      Prod.ext rfl hkey
    refine ⟨.member (textAt (atElement first c).next).1 behind.dropBlanks.mark d members, after, ?_, hafter,
      .member _ hshown hshows hshows'⟩
    rw [Document.readMembers]
    simp only
    rw [hpeek]
    simp only
    rw [if_neg hopen, if_neg hcomma, atElement_eq, ByteCursor.peek?_of_bytes helement]
    simp only
    rw [if_neg (by decide), if_neg (by simp), htext]
    simp only
    rw [ByteCursor.peek?_of_bytes hturn]
    simp only
    rw [if_neg (by simp), hd]
    simp only
    rw [hmore]

theorem readsAll (steps : Nat) : ReadsAll steps ∧ ReadsAllItems steps ∧ ReadsAllMembers steps := by
  induction steps with
  | zero =>
    -- No spelling is empty.
    refine ⟨?_, ?_, ?_⟩
    · intro c gap body rest j _ hspelled _ _ hsteps
      obtain ⟨b, more, hcons, -⟩ := hspelled.head
      rw [hcons, List.length_cons] at hsteps
      omega
    · intro c first body rest js hspelled _ hsteps
      have hpositive := hspelled.length_pos
      omega
    · intro c first body rest ms hspelled _ hsteps
      cases hspelled
      all_goals
        simp only [List.length_append, List.length_cons] at hsteps
        omega
  | succ steps ih =>
    obtain ⟨hread, hitems, hmembers⟩ := ih
    exact ⟨readsAll_succ hitems hmembers, readsAllItems_succ hread hitems, readsAllMembers_succ hread hmembers⟩

/-- A spelling of a value is read to its end, whatever follows that does not go on with it. -/
theorem read_complete (steps : Nat) {c : ByteCursor} {gap body rest : List UInt8} {j : Json} (hgap : Blank gap)
    (h : j.Spelled body) (hbytes : c.bytes = gap ++ (body ++ rest)) (hrest : Clear goesOn rest)
    (hsteps : body.length ≤ steps) :
    ∃ d after, Document.read c steps = (d, some after) ∧ after.bytes = rest ∧ d.Shows j :=
  (readsAll steps).1 c gap body rest j hgap h hbytes hrest hsteps

/-! ## Section 2 - whole documents -/

theorem length_byteArray_toList (bytes : ByteArray) : bytes.toList.length = bytes.size := by
  have hloop : ∀ (i : Nat) (read : List UInt8), i ≤ bytes.size →
      (ByteArray.toList.loop bytes i read).length = read.length + (bytes.size - i) := by
    intro i read hi
    fun_induction ByteArray.toList.loop bytes i read with
    | case1 i read hlt ih =>
      rw [ih (by omega), List.length_cons]
      omega
    | case2 i read hge =>
      rw [List.length_reverse]
      omega
  rw [ByteArray.toList, hloop 0 [] (Nat.zero_le _), List.length_nil]
  omega

/-- Whatever spells a value is read as a document that shows it, with no fault behind. -/
theorem ofBytes_of_writtenIn {bytes : ByteArray} {j : Json} (h : j.WrittenIn bytes.toList) :
    ∃ d, Document.ofBytes bytes = (d, none) ∧ d.Shows j := by
  obtain ⟨gap, body, gap', hgap, hspelled, hgap', hbytes⟩ := h
  have hclear : Clear goesOn gap' := by
    intro b hb
    exact goesOn_of_isGap (hgap' b (List.mem_of_mem_head? hb))
  have hlength := congrArg List.length hbytes
  rw [length_byteArray_toList, List.length_append, List.length_append] at hlength
  obtain ⟨d, after, hread, hafter, hshows⟩ :=
    read_complete (2 * bytes.size + 2) hgap hspelled (c := ⟨bytes.toList, {}⟩) hbytes hclear (by omega)
  refine ⟨d, ?_, hshows⟩
  have hend : after.dropBlanks.bytes = [] :=
    ByteCursor.dropWhile_of_bytes (hafter.trans (List.append_nil _).symm) hgap' (fun b hb => by cases hb)
  rw [Document.ofBytes]
  simp only
  rw [hread]
  simp only
  rw [if_pos hend]

/-- A document with no fault behind is unfinished, or it shows a value that the bytes spell. -/
theorem ofBytes_sound {bytes : ByteArray} {d : Document} (h : Document.ofBytes bytes = (d, none)) :
    d.Unfinished ∨ ∃ j, j.WrittenIn bytes.toList ∧ d.Shows j := by
  rw [Document.ofBytes] at h
  simp only at h
  split at h
  · next document hread =>
    rw [Prod.mk.injEq] at h
    rw [← h.1]
    exact .inl (read_unfinished hread)
  · next document after hread =>
    rw [Prod.mk.injEq] at h
    obtain ⟨rfl, hbehind⟩ := h
    obtain ⟨gap, body, j, hgap, hspelled, hbytes, hshows⟩ := read_sound hread
    obtain ⟨gap', hgap', hafter⟩ := dropBlanks_split after
    have hend : after.dropBlanks.bytes = [] := by
      by_contra hne
      rw [if_neg hne] at hbehind
      cases hbehind
    refine .inr ⟨j, ⟨gap, body, gap', hgap, hspelled, hgap', ?_⟩, hshows⟩
    change bytes.toList = _ at hbytes
    rw [hbytes, hafter, hend, List.append_nil]

end HotReload
