import HotReload.Proofs.Settings.Numerals
import Mathlib.Data.List.Basic

/-! # Texts of a document

    What is skipped as a text is a text of the grammar, and what is read as one names the
    characters that it is read as.  The text ends at its closing quote, so neither outcome
    depends on the bytes behind it. -/

namespace HotReload

open Document

/-! ## Section 1 - characters -/

/-- A character is one byte, or all of its bytes are high. -/
theorem utf8EncodeChar_cases (c : Char) :
    (c.toNat < 128 ∧ String.utf8EncodeChar c = [UInt8.ofNat c.toNat]) ∨
      (128 ≤ c.toNat ∧ ∀ b ∈ String.utf8EncodeChar c, 128 ≤ b.toNat) := by
  unfold String.utf8EncodeChar
  change (c.val.toNat < 128 ∧ _ = [UInt8.ofNat c.val.toNat]) ∨ (128 ≤ c.val.toNat ∧ _)
  generalize c.val.toNat = v
  simp only
  by_cases hone : v ≤ 127
  · rw [if_pos hone]
    left
    exact ⟨by omega, rfl⟩
  · rw [if_neg hone]
    right
    refine ⟨by omega, ?_⟩
    intro b hb
    have hmem : ∃ n, 128 ≤ n ∧ n < 256 ∧ b = UInt8.ofNat n := by
      split at hb
      · simp only [List.mem_cons, List.not_mem_nil, or_false] at hb
        rcases hb with rfl | rfl
        · exact ⟨_, by omega, by omega, rfl⟩
        · exact ⟨_, by omega, by omega, rfl⟩
      · split at hb
        · simp only [List.mem_cons, List.not_mem_nil, or_false] at hb
          rcases hb with rfl | rfl | rfl
          · exact ⟨_, by omega, by omega, rfl⟩
          · exact ⟨_, by omega, by omega, rfl⟩
          · exact ⟨_, by omega, by omega, rfl⟩
        · simp only [List.mem_cons, List.not_mem_nil, or_false] at hb
          rcases hb with rfl | rfl | rfl | rfl
          · exact ⟨_, by omega, by omega, rfl⟩
          · exact ⟨_, by omega, by omega, rfl⟩
          · exact ⟨_, by omega, by omega, rfl⟩
          · exact ⟨_, by omega, by omega, rfl⟩
    obtain ⟨n, hlow, hhigh, rfl⟩ := hmem
    rw [UInt8.toNat_ofNat', Nat.mod_eq_of_lt hhigh]
    exact hlow

theorem characterSize_ofNat {n : Nat} (h : n < 256) :
    characterSize (UInt8.ofNat n) = if n < 128 then 1 else if n < 224 then 2 else if n < 240 then 3 else 4 := by
  have hnat : (UInt8.ofNat n).toNat = n := by rw [UInt8.toNat_ofNat', Nat.mod_eq_of_lt h]
  unfold characterSize
  simp only [UInt8.lt_iff_toNat_lt, hnat]
  rfl

/-- The first byte of a character tells the number of its bytes. -/
theorem characterSize_utf8EncodeChar (c : Char) :
    ∃ b rest, String.utf8EncodeChar c = b :: rest ∧ characterSize b = (String.utf8EncodeChar c).length := by
  unfold String.utf8EncodeChar
  simp only
  generalize c.val.toNat = v
  split
  · refine ⟨_, _, rfl, ?_⟩
    rw [characterSize_ofNat (by omega), if_pos (by omega)]
    rfl
  · split
    · refine ⟨_, _, rfl, ?_⟩
      rw [characterSize_ofNat (by omega), if_neg (by omega), if_pos (by omega)]
      rfl
    · split
      · refine ⟨_, _, rfl, ?_⟩
        rw [characterSize_ofNat (by omega), if_neg (by omega), if_neg (by omega), if_pos (by omega)]
        rfl
      · refine ⟨_, _, rfl, ?_⟩
        rw [characterSize_ofNat (by omega), if_neg (by omega), if_neg (by omega), if_neg (by omega)]
        rfl

theorem toList_of_fromUTF8? {bytes : List UInt8} {s : String} (h : String.fromUTF8? ⟨bytes.toArray⟩ = some s) :
    bytes = s.toList.flatMap String.utf8EncodeChar := by
  unfold String.fromUTF8? at h
  split at h
  · next hvalid =>
    obtain ⟨cs, hcs⟩ := hvalid
    cases h
    have hof : String.fromUTF8 ⟨bytes.toArray⟩ ⟨cs, hcs⟩ = String.ofList cs := String.toByteArray_inj.1 hcs
    rw [hof, String.toList_ofList]
    have hdata := congrArg (fun b => b.data.toList) hcs
    simp only [List.utf8Encode, List.data_toByteArray] at hdata
    exact hdata
  · cases h

theorem character?_utf8EncodeChar (c : Char) : character? (String.utf8EncodeChar c) = some c := by
  have hencode : (⟨(String.utf8EncodeChar c).toArray⟩ : ByteArray) = [c].utf8Encode := by
    apply ByteArray.ext
    simp [List.utf8Encode, List.data_toByteArray]
  have hof : String.fromUTF8? ⟨(String.utf8EncodeChar c).toArray⟩ = some (String.ofList [c]) := by
    rw [hencode]
    unfold String.fromUTF8?
    rw [dif_pos ⟨_, rfl⟩]
    rfl
  rw [character?, hof, Option.bind_some, String.toList_ofList, List.head?_cons]

/-- Bytes that are read as one character are the encoding of it. -/
theorem character?_take {b : UInt8} {rest : List UInt8} {c : Char}
    (h : character? ((b :: rest).take (characterSize b)) = some c) :
    (b :: rest).take (characterSize b) = String.utf8EncodeChar c := by
  unfold character? at h
  obtain ⟨s, hs, hhead⟩ := Option.bind_eq_some_iff.1 h
  have hbytes := toList_of_fromUTF8? hs
  obtain ⟨more, hmore⟩ : ∃ more, s.toList = c :: more := by
    cases hlist : s.toList with
    | nil => rw [hlist] at hhead; cases hhead
    | cons c' more =>
      rw [hlist, List.head?_cons, Option.some.injEq] at hhead
      exact ⟨more, by rw [hhead]⟩
  rw [hmore, List.flatMap_cons] at hbytes
  -- The encoding of the first character takes all the bytes that its first byte asks for.
  obtain ⟨b', tail, hencode, hsize⟩ := characterSize_utf8EncodeChar c
  have hpos : 0 < characterSize b := by
    unfold characterSize
    split
    · decide
    · split
      · decide
      · split <;> decide
  have hfirst : b = b' := by
    obtain ⟨n, hn⟩ := Nat.exists_eq_succ_of_ne_zero (Nat.ne_of_gt hpos)
    rw [hn, List.take_succ_cons, hencode, List.cons_append, List.cons.injEq] at hbytes
    exact hbytes.1
  subst hfirst
  have hlength := congrArg List.length hbytes
  rw [List.length_take, List.length_append, ← hsize] at hlength
  have hnil : more.flatMap String.utf8EncodeChar = [] := by
    apply List.eq_nil_of_length_eq_zero
    omega
  rw [hbytes, hnil, List.append_nil]

/-- A character stands for itself in a text exactly if each of its bytes does. -/
theorem plain_byte_iff {c : Char} {b : UInt8} (hb : b ∈ String.utf8EncodeChar c) :
    (32 ≤ b ∧ b ≠ byteOf '"' ∧ b ≠ byteOf '\\') ↔ (32 ≤ c.toNat ∧ c ≠ '"' ∧ c ≠ '\\') := by
  have hquote : c ≠ '"' ↔ c.toNat ≠ 34 := not_congr Char.toNat_inj.symm
  have hbackslash : c ≠ '\\' ↔ c.toNat ≠ 92 := not_congr Char.toNat_inj.symm
  have hquote' : b ≠ byteOf '"' ↔ b.toNat ≠ 34 := not_congr UInt8.toNat_inj.symm
  have hbackslash' : b ≠ byteOf '\\' ↔ b.toNat ≠ 92 := not_congr UInt8.toNat_inj.symm
  have hvisible : 32 ≤ b ↔ 32 ≤ b.toNat := UInt8.le_iff_toNat_le
  rw [hquote, hbackslash, hquote', hbackslash', hvisible]
  rcases utf8EncodeChar_cases c with ⟨hlow, hencode⟩ | ⟨hhigh, hbytes⟩
  · rw [hencode, List.mem_singleton] at hb
    have hnat : b.toNat = c.toNat := by rw [hb, UInt8.toNat_ofNat', Nat.mod_eq_of_lt (by omega)]
    rw [hnat]
  · have hbyte := hbytes b hb
    omega

/-! ## Section 2 - escapes -/

theorem readUnit_sound {c after : ByteCursor} {n : Nat} (h : readUnit c = .ok (n, after)) :
    ∃ digits, IsUnit digits n ∧ c.bytes = digits ++ after.bytes := by
  unfold readUnit at h
  split at h
  · next b₁ b₂ b₃ b₄ rest hbytes =>
    simp only at h
    split at h
    · next d₁ d₂ d₃ d₄ h₁ h₂ h₃ h₄ =>
      cases h
      have hnext := ByteCursor.next_of_bytes (ByteCursor.next_of_bytes (ByteCursor.next_of_bytes
        (ByteCursor.next_of_bytes hbytes)))
      refine ⟨[b₁, b₂, b₃, b₄], .digits h₁ h₂ h₃ h₄, ?_⟩
      rw [hbytes, hnext]
      rfl
    · cases h
  · cases h

theorem readUnit_complete {c : ByteCursor} {digits rest : List UInt8} {n : Nat} (h : IsUnit digits n)
    (hbytes : c.bytes = digits ++ rest) : ∃ after, readUnit c = .ok (n, after) ∧ after.bytes = rest := by
  cases h with
  | @digits b₁ b₂ b₃ b₄ d₁ d₂ d₃ d₄ h₁ h₂ h₃ h₄ =>
    have hnext := ByteCursor.next_of_bytes (ByteCursor.next_of_bytes (ByteCursor.next_of_bytes
      (ByteCursor.next_of_bytes hbytes)))
    refine ⟨c.next.next.next.next, ?_, hnext⟩
    unfold readUnit
    rw [hbytes]
    simp only [List.cons_append, h₁, h₂, h₃, h₄]

theorem readSurrogateMark_sound {letter : Char} {c after : ByteCursor} (h : readSurrogateMark letter c = .ok after) :
    c.bytes = byteOf letter :: after.bytes := by
  unfold readSurrogateMark at h
  split at h
  · cases h
  · next b hb =>
    split at h
    · next heq =>
      cases h
      rw [← heq]
      exact ByteCursor.bytes_of_peek? hb
    · cases h

theorem readSurrogateMark_complete {letter : Char} {c : ByteCursor} {rest : List UInt8}
    (h : c.bytes = byteOf letter :: rest) : readSurrogateMark letter c = .ok c.next := by
  unfold readSurrogateMark
  rw [ByteCursor.peek?_of_bytes h]
  exact if_pos rfl

theorem escaped?_unit : escaped? (byteOf 'u') = none := by decide

theorem readCodePoint_sound {c after : ByteCursor} {char : Char} (h : readCodePoint c = .ok (char, after)) :
    ∃ escape, Escapes (byteOf 'u' :: escape) char ∧ c.bytes = escape ++ after.bytes := by
  unfold readCodePoint at h
  cases hfirst : readUnit c with
  | error fault => rw [hfirst] at h; cases h
  | ok first =>
    obtain ⟨high, c₁⟩ := first
    obtain ⟨front, hfront, hbytes⟩ := readUnit_sound hfirst
    rw [hfirst] at h
    simp only [bind, Except.bind] at h
    split at h
    · cases h
    next htrailing =>
    split at h
    · next hplain =>
      cases h
      exact ⟨front, .unit hfront (by omega), hbytes⟩
    next hleading =>
    -- The other half stands in an escape of its own.
    cases hslash : readSurrogateMark '\\' c₁ with
    | error fault => rw [hslash] at h; cases h
    | ok c₂ =>
      rw [hslash] at h
      simp only at h
      cases hletter : readSurrogateMark 'u' c₂ with
      | error fault => rw [hletter] at h; cases h
      | ok c₃ =>
        rw [hletter] at h
        simp only at h
        cases hsecond : readUnit c₃ with
        | error fault => rw [hsecond] at h; cases h
        | ok second =>
          obtain ⟨low, c₄⟩ := second
          obtain ⟨back, hback, hbytes'⟩ := readUnit_sound hsecond
          rw [hsecond] at h
          simp only at h
          split at h
          · cases h
          next hlow =>
          rw [Except.ok.injEq, Prod.mk.injEq] at h
          obtain ⟨rfl, rfl⟩ := h
          refine ⟨_, .pair hfront (by omega) hback (by omega), ?_⟩
          rw [hbytes, readSurrogateMark_sound hslash, readSurrogateMark_sound hletter, hbytes']
          simp

theorem readCodePoint_complete {c : ByteCursor} {escape rest : List UInt8} {char : Char}
    (h : Escapes (byteOf 'u' :: escape) char) (hbytes : c.bytes = escape ++ rest) :
    ∃ after, readCodePoint c = .ok (char, after) ∧ after.bytes = rest := by
  unfold readCodePoint
  cases h with
  | letter known =>
    rw [escaped?_unit] at known
    cases known
  | unit hunit hcharacter =>
    obtain ⟨after, hread, hafter⟩ := readUnit_complete hunit hbytes
    rw [hread]
    simp only [bind, Except.bind]
    rw [if_neg (by omega), if_pos (by omega)]
    exact ⟨after, rfl, hafter⟩
  | pair hfront hleading hback htrailing =>
    rw [List.append_assoc, List.cons_append, List.cons_append] at hbytes
    obtain ⟨c₁, hread, hc₁⟩ := readUnit_complete hfront hbytes
    have hc₂ := ByteCursor.next_of_bytes hc₁
    have hc₃ := ByteCursor.next_of_bytes hc₂
    obtain ⟨after, hread', hafter⟩ := readUnit_complete hback hc₃
    rw [hread]
    simp only [bind, Except.bind]
    rw [if_neg (by omega), if_neg (by omega), readSurrogateMark_complete hc₁]
    simp only
    rw [readSurrogateMark_complete hc₂]
    simp only
    rw [hread']
    simp only
    rw [if_neg (by omega)]
    exact ⟨after, rfl, hafter⟩

theorem readEscape_sound {c after : ByteCursor} {char : Char} (h : readEscape c = .ok (char, after)) :
    ∃ escape, Escapes escape char ∧ c.bytes = escape ++ after.bytes := by
  unfold readEscape at h
  split at h
  · cases h
  next b hpeek =>
  have hbytes := ByteCursor.bytes_of_peek? hpeek
  split at h
  · next hletter =>
    obtain ⟨escape, hescape, hrest⟩ := readCodePoint_sound h
    refine ⟨_, hescape, ?_⟩
    rw [hbytes, hrest, hletter]
    rfl
  · split at h
    · next char' hknown =>
      cases h
      exact ⟨[b], .letter hknown, hbytes⟩
    · cases h

theorem readEscape_complete {c : ByteCursor} {escape rest : List UInt8} {char : Char} (h : Escapes escape char)
    (hbytes : c.bytes = escape ++ rest) : ∃ after, readEscape c = .ok (char, after) ∧ after.bytes = rest := by
  unfold readEscape
  cases h with
  | @letter b _ hknown =>
    rw [ByteCursor.peek?_of_bytes hbytes]
    simp only
    rw [if_neg, hknown]
    · exact ⟨c.next, rfl, ByteCursor.next_of_bytes hbytes⟩
    · rintro rfl
      rw [escaped?_unit] at hknown
      cases hknown
  | unit hunit hcharacter =>
    rw [ByteCursor.peek?_of_bytes hbytes]
    simp only [if_true]
    exact readCodePoint_complete (.unit hunit hcharacter) (ByteCursor.next_of_bytes hbytes)
  | pair hfront hleading hback htrailing =>
    rw [ByteCursor.peek?_of_bytes hbytes]
    simp only [if_true]
    exact readCodePoint_complete (.pair hfront hleading hback htrailing) (ByteCursor.next_of_bytes hbytes)

theorem skipEscape_sound {c after : ByteCursor} (h : skipEscape c = .ok after) :
    ∃ escape, IsEscape escape ∧ c.bytes = escape ++ after.bytes := by
  unfold skipEscape at h
  split at h
  · cases h
  next b hpeek =>
  have hbytes := ByteCursor.bytes_of_peek? hpeek
  split at h
  · next hletter =>
    cases hunit : readUnit c.next with
    | error fault => rw [hunit] at h; cases h
    | ok found =>
      obtain ⟨n, after'⟩ := found
      rw [hunit] at h
      cases h
      obtain ⟨digits, hdigits, hrest⟩ := readUnit_sound hunit
      refine ⟨_, .unit hdigits, ?_⟩
      rw [hbytes, hletter, hrest]
      rfl
  · split at h
    · next hknown =>
      cases h
      exact ⟨[b], .letter hknown, hbytes⟩
    · cases h

theorem skipEscape_complete {c : ByteCursor} {escape rest : List UInt8} (h : IsEscape escape)
    (hbytes : c.bytes = escape ++ rest) : ∃ after, skipEscape c = .ok after ∧ after.bytes = rest := by
  unfold skipEscape
  cases h with
  | @letter b hknown =>
    rw [ByteCursor.peek?_of_bytes hbytes]
    simp only
    rw [if_neg, if_pos hknown]
    · exact ⟨c.next, rfl, ByteCursor.next_of_bytes hbytes⟩
    · rintro rfl
      rw [escaped?_unit] at hknown
      cases hknown
  | unit hunit =>
    obtain ⟨after, hread, hafter⟩ := readUnit_complete hunit (ByteCursor.next_of_bytes hbytes)
    rw [ByteCursor.peek?_of_bytes hbytes]
    simp only [if_true]
    rw [hread]
    exact ⟨after, rfl, hafter⟩

/-! ## Section 3 - whole texts -/

/-- What is skipped as a text is one. -/
theorem skipText_sound {c after : ByteCursor} {steps : Nat} (h : skipText c steps = .ok after) :
    ∃ raw, IsText raw ∧ c.bytes = raw ++ byteOf '"' :: after.bytes := by
  induction steps generalizing c with
  | zero => cases h
  | succ steps ih =>
    unfold skipText at h
    split at h
    · cases h
    next b hpeek =>
    have hbytes := ByteCursor.bytes_of_peek? hpeek
    split at h
    · next hquote =>
      cases h
      refine ⟨[], .empty, ?_⟩
      rw [hbytes, hquote]
      rfl
    next hquote =>
    split at h
    · next hbackslash =>
      split at h
      · cases h
      next c' hescape =>
      obtain ⟨escape, hspelled, hrest⟩ := skipEscape_sound hescape
      obtain ⟨raw, hraw, hend⟩ := ih h
      refine ⟨_, .escape hspelled hraw, ?_⟩
      rw [hbytes, hbackslash, hrest, hend]
      simp
    next hbackslash =>
    split at h
    · cases h
    next hvisible =>
    obtain ⟨raw, hraw, hend⟩ := ih h
    refine ⟨_, .plain (UInt8.not_lt.1 hvisible) hquote hbackslash hraw, ?_⟩
    rw [hbytes, hend]
    rfl

/-- A text is skipped, whatever follows its closing quote. -/
theorem skipText_complete {raw : List UInt8} (h : IsText raw) {c : ByteCursor} {rest : List UInt8} (steps : Nat)
    (hbytes : c.bytes = raw ++ byteOf '"' :: rest) (hsteps : raw.length < steps) :
    ∃ after, skipText c steps = .ok after ∧ after.bytes = rest := by
  induction h generalizing c steps with
  | empty =>
    obtain ⟨steps, rfl⟩ := Nat.exists_eq_succ_of_ne_zero (Nat.ne_of_gt hsteps)
    rw [skipText, ByteCursor.peek?_of_bytes hbytes]
    exact ⟨c.next, rfl, ByteCursor.next_of_bytes hbytes⟩
  | @plain b raw hvisible hquote hbackslash hrest ih =>
    obtain ⟨steps, rfl⟩ := Nat.exists_eq_succ_of_ne_zero (Nat.ne_of_gt (Nat.zero_lt_of_lt hsteps))
    rw [List.length_cons] at hsteps
    rw [skipText, ByteCursor.peek?_of_bytes hbytes]
    simp only
    rw [if_neg hquote, if_neg hbackslash, if_neg (UInt8.not_lt.2 hvisible)]
    exact ih _ (ByteCursor.next_of_bytes hbytes) (by omega)
  | @escape escape raw hspelled hrest ih =>
    obtain ⟨steps, rfl⟩ := Nat.exists_eq_succ_of_ne_zero (Nat.ne_of_gt (Nat.zero_lt_of_lt hsteps))
    rw [List.length_cons, List.length_append] at hsteps
    have hnext : c.next.bytes = escape ++ raw ++ byteOf '"' :: rest := ByteCursor.next_of_bytes hbytes
    rw [List.append_assoc] at hnext
    obtain ⟨after, hskip, hafter⟩ := skipEscape_complete hspelled hnext
    rw [skipText, ByteCursor.peek?_of_bytes hbytes]
    simp only [if_true]
    rw [if_neg (by decide), hskip]
    exact ih _ hafter (by omega)

/-- What is read as a text names the characters that it is read as. -/
theorem readText_sound {c after : ByteCursor} {read : List Char} {s : String} {steps : Nat}
    (h : readText c read steps = .ok (s, after)) :
    ∃ raw cs, Denotes raw cs ∧ c.bytes = raw ++ byteOf '"' :: after.bytes ∧ s = String.ofList (read.reverse ++ cs) := by
  induction steps generalizing c read with
  | zero => cases h
  | succ steps ih =>
    unfold readText at h
    split at h
    · cases h
    next b rest hbytes =>
    split at h
    · next hquote =>
      cases h
      refine ⟨[], [], .empty, ?_, by rw [List.append_nil]⟩
      rw [hbytes, hquote, ByteCursor.next_of_bytes hbytes]
      rfl
    next hquote =>
    split at h
    · next hbackslash =>
      split at h
      · cases h
      next char c' hescape =>
      obtain ⟨escape, hspelled, hrest⟩ := readEscape_sound hescape
      obtain ⟨raw, cs, hraw, hend, hs⟩ := ih h
      refine ⟨_, _, .escape hspelled hraw, ?_, by rw [hs]; simp⟩
      rw [hbytes, hbackslash, ← ByteCursor.next_of_bytes hbytes, hrest, hend]
      simp
    next hbackslash =>
    split at h
    · cases h
    next hvisible =>
    split at h
    · cases h
    next char hchar =>
    obtain ⟨raw, cs, hraw, hend, hs⟩ := ih h
    rw [hbytes] at hchar hend
    have htake := character?_take hchar
    -- The first byte is one of the character, and it stands for itself.
    have hmem : b ∈ String.utf8EncodeChar char := by
      obtain ⟨b', tail, hencode, -⟩ := characterSize_utf8EncodeChar char
      have hsplit := (List.take_append_drop (characterSize b) (b :: rest)).symm
      rw [htake, hencode, List.cons_append, List.cons.injEq] at hsplit
      rw [hencode, hsplit.1]
      exact List.mem_cons_self
    obtain ⟨hvisible', hquote', hbackslash'⟩ := (plain_byte_iff hmem).1 ⟨UInt8.not_lt.1 hvisible, hquote, hbackslash⟩
    refine ⟨_, _, .plain hvisible' hquote' hbackslash' hraw, ?_, by rw [hs]; simp⟩
    rw [hbytes, List.append_assoc, ← hend, ← htake, List.take_append_drop]

/-- A character that is spelled as itself is read. -/
theorem readText_plain {char : Char} (hvisible : 32 ≤ char.toNat) (hquote : char ≠ '"') (hbackslash : char ≠ '\\')
    {c : ByteCursor} {rest : List UInt8} (hbytes : c.bytes = String.utf8EncodeChar char ++ rest) (read : List Char)
    (steps : Nat) : ∃ mark, readText c read (steps + 1) = readText ⟨rest, mark⟩ (char :: read) steps := by
  obtain ⟨b, tail, hencode, hsize⟩ := characterSize_utf8EncodeChar char
  have hmem : b ∈ String.utf8EncodeChar char := by
    rw [hencode]
    exact List.mem_cons_self
  obtain ⟨hvisible', hquote', hbackslash'⟩ := (plain_byte_iff hmem).2 ⟨hvisible, hquote, hbackslash⟩
  have htake : c.bytes.take (characterSize b) = String.utf8EncodeChar char := by
    rw [hbytes, hsize, List.take_left]
  have hdrop : c.bytes.drop (characterSize b) = rest := by
    rw [hbytes, hsize, List.drop_left]
  have hcons : c.bytes = b :: (tail ++ rest) := by
    rw [hbytes, hencode]
    rfl
  rw [readText]
  split
  · next hnil =>
    rw [hnil] at hcons
    cases hcons
  next b' rest' hsplit =>
  rw [hcons, List.cons.injEq] at hsplit
  rw [← hsplit.1, if_neg hquote', if_neg hbackslash', if_neg (UInt8.not_lt.2 hvisible'), htake,
    character?_utf8EncodeChar, hdrop]
  exact ⟨_, rfl⟩

/-- A character that is spelled by an escape is read. -/
theorem readText_escape {escape : List UInt8} {char : Char} (h : Escapes escape char) {c : ByteCursor}
    {rest : List UInt8} (hbytes : c.bytes = byteOf '\\' :: (escape ++ rest)) (read : List Char) (steps : Nat) :
    ∃ c' : ByteCursor, c'.bytes = rest ∧ readText c read (steps + 1) = readText c' (char :: read) steps := by
  obtain ⟨c', hread, hc'⟩ := readEscape_complete h (ByteCursor.next_of_bytes hbytes)
  refine ⟨c', hc', ?_⟩
  rw [readText]
  split
  · next hnil =>
    rw [hnil] at hbytes
    cases hbytes
  next b rest' hsplit =>
  rw [hbytes, List.cons.injEq] at hsplit
  rw [← hsplit.1, if_neg (by decide), if_pos rfl, hread]

/-- A text that names characters is read, whatever follows its closing quote. -/
theorem readText_complete {raw : List UInt8} {cs : List Char} (h : Denotes raw cs) {c : ByteCursor}
    {rest : List UInt8} (read : List Char) (steps : Nat) (hbytes : c.bytes = raw ++ byteOf '"' :: rest)
    (hsteps : raw.length < steps) :
    ∃ after, readText c read steps = .ok (String.ofList (read.reverse ++ cs), after) ∧ after.bytes = rest := by
  obtain ⟨steps, rfl⟩ := Nat.exists_eq_succ_of_ne_zero (Nat.ne_of_gt (Nat.zero_lt_of_lt hsteps))
  induction h generalizing c read steps with
  | empty =>
    rw [List.nil_append] at hbytes
    rw [readText, hbytes, List.append_nil]
    exact ⟨c.next, rfl, ByteCursor.next_of_bytes hbytes⟩
  | @plain char raw cs hvisible hquote hbackslash hrest ih =>
    have hpositive : 0 < (String.utf8EncodeChar char).length := by
      obtain ⟨b, tail, hencode, -⟩ := characterSize_utf8EncodeChar char
      exact hencode ▸ Nat.succ_pos tail.length
    rw [List.length_append] at hsteps
    rw [List.append_assoc] at hbytes
    obtain ⟨mark, hstep⟩ := readText_plain hvisible hquote hbackslash hbytes read steps
    obtain ⟨steps, rfl⟩ := Nat.exists_eq_succ_of_ne_zero (show steps ≠ 0 by omega)
    obtain ⟨after, hread, hafter⟩ := ih (c := ⟨_, mark⟩) (char :: read) rfl steps (by omega)
    exact ⟨after, by rw [hstep, hread]; simp, hafter⟩
  | @escape escape raw char cs hspelled hrest ih =>
    rw [List.length_cons, List.length_append] at hsteps
    rw [List.cons_append, List.append_assoc] at hbytes
    obtain ⟨c', hc', hstep⟩ := readText_escape hspelled hbytes read steps
    obtain ⟨steps, rfl⟩ := Nat.exists_eq_succ_of_ne_zero (show steps ≠ 0 by omega)
    obtain ⟨after, hread, hafter⟩ := ih (char :: read) hc' steps (by omega)
    exact ⟨after, by rw [hstep, hread]; simp, hafter⟩

/-! ## Section 4 - the value of a text -/

theorem isText_utf8EncodeChar {c : Char} {raw : List UInt8} (hvisible : 32 ≤ c.toNat) (hquote : c ≠ '"')
    (hbackslash : c ≠ '\\') (hraw : IsText raw) : IsText (String.utf8EncodeChar c ++ raw) := by
  have hplain : ∀ front : List UInt8, (∀ b ∈ front, b ∈ String.utf8EncodeChar c) → IsText (front ++ raw) := by
    intro front hfront
    induction front with
    | nil => exact hraw
    | cons b front ih =>
      obtain ⟨hvisible', hquote', hbackslash'⟩ :=
        (plain_byte_iff (hfront b List.mem_cons_self)).2 ⟨hvisible, hquote, hbackslash⟩
      apply IsText.plain hvisible' hquote' hbackslash'
      apply ih
      intro b' hb'
      exact hfront b' (List.mem_cons_of_mem _ hb')
  exact hplain _ fun _ hb => hb

/-- A text that names characters is a text. -/
theorem Denotes.isText {raw : List UInt8} {cs : List Char} (h : Denotes raw cs) : IsText raw := by
  induction h with
  | empty => exact .empty
  | plain hvisible hquote hbackslash _ ih => exact isText_utf8EncodeChar hvisible hquote hbackslash ih
  | escape hspelled _ ih =>
    cases hspelled with
    | letter hknown => exact .escape (.letter (by rw [hknown]; rfl)) ih
    | unit hunit => exact .escape (.unit hunit) ih
    | @pair front back high low hfront _ hback _ =>
      have hinner : IsText (byteOf '\\' :: (byteOf 'u' :: back ++ _)) := .escape (.unit hback) ih
      have houter := IsText.escape (.unit hfront) hinner
      simpa using houter

/-- The quote that closes a text is the only one that can. -/
theorem IsText.unique {raw raw' rest rest' : List UInt8} (h : IsText raw) (h' : IsText raw')
    (heq : raw ++ byteOf '"' :: rest = raw' ++ byteOf '"' :: rest') : raw = raw' ∧ rest = rest' := by
  obtain ⟨after, hskip, hafter⟩ := skipText_complete h (c := ⟨raw ++ byteOf '"' :: rest, {}⟩)
    (raw.length + raw'.length + 1) rfl (by omega)
  obtain ⟨after', hskip', hafter'⟩ := skipText_complete h' (c := ⟨raw ++ byteOf '"' :: rest, {}⟩)
    (raw.length + raw'.length + 1) heq (by omega)
  rw [hskip, Except.ok.injEq] at hskip'
  have hrest : rest = rest' := by rw [← hafter, ← hafter', hskip']
  subst hrest
  exact ⟨List.append_cancel_right heq, rfl⟩

/-- The text that is spelled, if the spelling names characters: what `Denotes` says, computed from the spelling
alone. -/
def textValue (raw : List UInt8) : Option String :=
  match readText ⟨raw ++ [byteOf '"'], {}⟩ [] (raw.length + 1) with
  | .ok (s, after) => if after.bytes = [] then some s else none
  | .error _ => none

/-- The value of a text is told by its escapes and the encoding of its characters, and by nothing around it. -/
theorem textValue_eq_some_iff {raw : List UInt8} {s : String} : textValue raw = some s ↔ Denotes raw s.toList := by
  unfold textValue
  constructor
  · intro h
    split at h
    · next s' after hread =>
      split at h
      · next hend =>
        rw [Option.some.injEq] at h
        subst h
        obtain ⟨raw', cs, hraw, hbytes, hs⟩ := readText_sound hread
        rw [hend] at hbytes
        rw [List.append_cancel_right hbytes, hs, String.toList_ofList]
        exact hraw
      · cases h
    · cases h
  · intro h
    obtain ⟨after, hread, hafter⟩ := readText_complete h (c := ⟨raw ++ [byteOf '"'], {}⟩) []
      (raw.length + 1) rfl (by omega)
    rw [hread]
    simp only
    rw [if_pos hafter, List.reverse_nil, List.nil_append, String.ofList_toList]

/-- A text as a reader finds it is the one that is spelled. -/
structure TextShown (s : Scalar String) (raw : List UInt8) : Prop where
  skipped : s.skipped = .ok ()
  value : ∀ v, s.value = .ok v ↔ textValue raw = some v

theorem textAt_shown {c after : ByteCursor} {raw rest : List UInt8} (h : IsText raw)
    (hbytes : c.bytes = raw ++ byteOf '"' :: rest) (hskip : (textAt c).2 = .ok after) :
    TextShown (textAt c).1 raw := by
  have hlength := congrArg List.length hbytes
  rw [List.length_append] at hlength
  constructor
  · change (skipText c (c.bytes.length + 1)).map (fun _ => ()) = _
    change skipText c (c.bytes.length + 1) = _ at hskip
    rw [hskip]
    rfl
  · intro v
    change (readText c [] (c.bytes.length + 1)).map Prod.fst = _ ↔ _
    rw [textValue_eq_some_iff]
    constructor
    · intro hvalue
      cases hread : readText c [] (c.bytes.length + 1) with
      | error fault => rw [hread] at hvalue; cases hvalue
      | ok found =>
        obtain ⟨s, after'⟩ := found
        rw [hread] at hvalue
        cases hvalue
        obtain ⟨raw', cs, hraw, hbytes', hs⟩ := readText_sound hread
        rw [hbytes] at hbytes'
        rw [(h.unique hraw.isText hbytes').1, hs, String.toList_ofList]
        exact hraw
    · intro hraw
      obtain ⟨after', hread, -⟩ := readText_complete hraw [] (c.bytes.length + 1) hbytes (by omega)
      rw [hread, List.reverse_nil, List.nil_append, String.ofList_toList]
      rfl

theorem textAt_sound {c after : ByteCursor} (h : (textAt c).2 = .ok after) :
    ∃ raw, IsText raw ∧ c.bytes = raw ++ byteOf '"' :: after.bytes ∧ TextShown (textAt c).1 raw := by
  obtain ⟨raw, hraw, hbytes⟩ := skipText_sound h
  exact ⟨raw, hraw, hbytes, textAt_shown hraw hbytes h⟩

theorem textAt_complete {c : ByteCursor} {raw rest : List UInt8} (h : IsText raw)
    (hbytes : c.bytes = raw ++ byteOf '"' :: rest) :
    ∃ after, (textAt c).2 = .ok after ∧ after.bytes = rest ∧ TextShown (textAt c).1 raw := by
  have hlength := congrArg List.length hbytes
  rw [List.length_append] at hlength
  obtain ⟨after, hskip, hafter⟩ := skipText_complete h (c.bytes.length + 1) hbytes (by omega)
  exact ⟨after, hskip, hafter, textAt_shown h hbytes hskip⟩

end HotReload
