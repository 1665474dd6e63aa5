import HotReload.Proofs.Settings.Json
import Mathlib.Data.List.TakeWhile

/-! # Numbers of a document

    What is skipped as a number is a number of the grammar, and such a number is skipped
    whatever follows it, as long as this does not go on with it.  Reading a number finds a
    natural number exactly if the spelling is one. -/

namespace HotReload

open Document

/-! ## Section 1 - cursors -/

theorem ByteCursor.next_of_bytes {c : ByteCursor} {b : UInt8} {rest : List UInt8} (h : c.bytes = b :: rest) :
    c.next.bytes = rest := by
  unfold ByteCursor.next
  rw [h]

theorem ByteCursor.peek?_of_bytes {c : ByteCursor} {b : UInt8} {rest : List UInt8} (h : c.bytes = b :: rest) :
    c.peek? = some b := by
  unfold ByteCursor.peek?
  rw [h, List.head?_cons]

theorem ByteCursor.bytes_of_peek? {c : ByteCursor} {b : UInt8} (h : c.peek? = some b) :
    c.bytes = b :: c.next.bytes := by
  cases hbytes : c.bytes with
  | nil => simp [ByteCursor.peek?, hbytes] at h
  | cons a rest =>
    rw [ByteCursor.peek?_of_bytes hbytes, Option.some.injEq] at h
    rw [ByteCursor.next_of_bytes hbytes, h]

theorem ByteCursor.dropWhile_bytes (test : UInt8 → Bool) (c : ByteCursor) :
    (c.dropWhile test).bytes = c.bytes.dropWhile test := by
  have hfrom : ∀ (mark : Mark) (bytes : List UInt8),
      (ByteCursor.dropWhileFrom test mark bytes).bytes = bytes.dropWhile test := by
    intro mark bytes
    induction bytes generalizing mark with
    | nil => rfl
    | cons b rest ih =>
      rw [ByteCursor.dropWhileFrom, List.dropWhile_cons]
      split
      · exact ih _
      · rfl
  exact hfrom c.mark c.bytes

/-- No byte that satisfies a test comes next. -/
def Clear (test : UInt8 → Bool) (rest : List UInt8) : Prop := ∀ b, rest.head? = some b → test b = false

theorem clear_dropWhile (test : UInt8 → Bool) (bytes : List UInt8) : Clear test (bytes.dropWhile test) := by
  intro b hb
  have hnot := List.head?_dropWhile_not test bytes
  rw [hb] at hnot
  exact hnot

theorem clear_cons {test : UInt8 → Bool} {b : UInt8} (h : test b = false) (rest : List UInt8) :
    Clear test (b :: rest) := by
  intro b' hb
  rw [List.head?_cons, Option.some.injEq] at hb
  exact hb ▸ h

theorem takeWhile_eq_of_clear {test : UInt8 → Bool} {rest : List UInt8} (h : Clear test rest) :
    rest.takeWhile test = [] := by
  cases rest with
  | nil => rfl
  | cons b rest => rw [List.takeWhile_cons, h b rfl, if_neg Bool.false_ne_true]

theorem dropWhile_eq_of_clear {test : UInt8 → Bool} {rest : List UInt8} (h : Clear test rest) :
    rest.dropWhile test = rest := by
  cases rest with
  | nil => rfl
  | cons b rest => rw [List.dropWhile_cons, h b rfl, if_neg Bool.false_ne_true]

/-- A run of bytes that satisfy a test is dropped as a whole. -/
theorem ByteCursor.dropWhile_of_bytes {test : UInt8 → Bool} {c : ByteCursor} {run rest : List UInt8}
    (h : c.bytes = run ++ rest) (hrun : ∀ b ∈ run, test b = true) (hrest : Clear test rest) :
    (c.dropWhile test).bytes = rest := by
  rw [ByteCursor.dropWhile_bytes, h, List.dropWhile_append_of_pos hrun, dropWhile_eq_of_clear hrest]

theorem digitsAt_of_bytes {c : ByteCursor} {run rest : List UInt8} (h : c.bytes = run ++ rest)
    (hrun : ∀ b ∈ run, isDigit b = true) (hrest : Clear isDigit rest) : digitsAt c = run := by
  rw [digitsAt, h, List.takeWhile_append_of_pos hrun, takeWhile_eq_of_clear hrest, List.append_nil]

theorem digitAhead_iff {c : ByteCursor} : digitAhead c = true ↔ ∃ b, c.peek? = some b ∧ isDigit b = true := by
  simp [digitAhead, Option.any_eq_true]

theorem eitherAhead_iff {x y : Char} {c : ByteCursor} :
    eitherAhead x y c = true ↔ c.peek? = some (byteOf x) ∨ c.peek? = some (byteOf y) := by
  simp [eitherAhead]

/-! ## Section 2 - what goes on with a number -/

/-- A byte that goes on with the digits before the point: another digit, the point, or the letter of an exponent. -/
def goesOn (b : UInt8) : Bool := isDigit b || b == byteOf '.' || b == byteOf 'e' || b == byteOf 'E'

theorem Clear.mono {test test' : UInt8 → Bool} {rest : List UInt8} (h : Clear test rest)
    (hle : ∀ b, test' b = true → test b = true) : Clear test' rest := by
  intro b hb
  have htest := h b hb
  cases htest' : test' b with
  | false => rfl
  | true => rw [hle b htest'] at htest; exact htest

theorem Clear.digit {rest : List UInt8} (h : Clear goesOn rest) : Clear isDigit rest :=
  h.mono fun b hb => by simp [goesOn, hb]

theorem IsFraction.clear {fraction rest : List UInt8} (h : IsFraction fraction) (hrest : Clear isDigit rest) :
    Clear isDigit (fraction ++ rest) := by
  cases h with
  | none => exact hrest
  | places hdigits => exact clear_cons (by decide) _

theorem not_isDigit_of_letter {mark : UInt8} (h : mark = byteOf 'e' ∨ mark = byteOf 'E') : isDigit mark = false := by
  rcases h with rfl | rfl
  · decide
  · decide

theorem IsExponent.clear {exponent rest : List UInt8} (h : IsExponent exponent) (hrest : Clear isDigit rest) :
    Clear isDigit (exponent ++ rest) := by
  cases h with
  | none => exact hrest
  | given letter signed hdigits => exact clear_cons (not_isDigit_of_letter letter) _

/-! ## Section 3 - skipping -/

theorem isDigits_run {c : ByteCursor} (h : digitAhead c = true) :
    ∃ digits, IsDigits digits ∧ c.bytes = digits ++ (c.dropWhile isDigit).bytes := by
  obtain ⟨b, hb, hdigit⟩ := digitAhead_iff.1 h
  have hbytes := ByteCursor.bytes_of_peek? hb
  refine ⟨c.bytes.takeWhile isDigit, ⟨?_, ?_⟩, ?_⟩
  · rw [hbytes, List.takeWhile_cons, if_pos hdigit]
    exact List.cons_ne_nil _ _
  · intro b hb
    exact List.mem_takeWhile_imp hb
  · rw [ByteCursor.dropWhile_bytes, List.takeWhile_append_dropWhile]

/-- Digits are ahead of a cursor if they come next. -/
theorem IsDigits.ahead {digits rest : List UInt8} {c : ByteCursor} (h : IsDigits digits)
    (hbytes : c.bytes = digits ++ rest) : digitAhead c = true := by
  cases digits with
  | nil => exact absurd rfl h.nonempty
  | cons b digits =>
    rw [digitAhead_iff]
    exact ⟨b, ByteCursor.peek?_of_bytes hbytes, h.decimal b List.mem_cons_self⟩

/-- The digits before the point do not start with a zero and go on. -/
theorem IsWhole.no_leading_zero {whole rest : List UInt8} {c : ByteCursor} (h : IsWhole whole)
    (hbytes : c.bytes = whole ++ rest) (hrest : Clear isDigit rest) :
    ¬ (c.peek? = some 48 ∧ digitAhead c.next = true) := by
  rintro ⟨hpeek, hnext⟩
  obtain ⟨b, more, hcons⟩ := List.exists_cons_of_ne_nil h.nonempty
  rw [hcons] at hbytes
  rw [ByteCursor.peek?_of_bytes hbytes, Option.some.injEq] at hpeek
  have halone := h.leading (by rw [hcons, hpeek]; rfl)
  rw [hcons, List.cons.injEq] at halone
  rw [halone.2] at hbytes
  obtain ⟨d, hd, hdigit⟩ := digitAhead_iff.1 hnext
  rw [ByteCursor.peek?, ByteCursor.next_of_bytes hbytes] at hd
  rw [hrest d hd] at hdigit
  cases hdigit

theorem skipExponent_sound {c after : ByteCursor} {mark : UInt8} (hmark : c.peek? = some mark)
    (hletter : mark = byteOf 'e' ∨ mark = byteOf 'E') (h : skipExponent c = .ok after) :
    ∃ exponent, IsExponent exponent ∧ exponent.head? = some mark ∧ c.bytes = exponent ++ after.bytes := by
  have hbytes := ByteCursor.bytes_of_peek? hmark
  unfold skipExponent at h
  simp only at h
  -- The sign is passed over first.
  obtain ⟨sign, hsign, hnext⟩ : ∃ sign, IsSign sign ∧
      c.next.bytes = sign ++ (if eitherAhead '+' '-' c.next then c.next.next else c.next).bytes := by
    by_cases heither : eitherAhead '+' '-' c.next = true
    · rw [if_pos heither]
      rcases eitherAhead_iff.1 heither with hplus | hminus
      · exact ⟨[byteOf '+'], .plus, ByteCursor.bytes_of_peek? hplus⟩
      · exact ⟨[byteOf '-'], .minus, ByteCursor.bytes_of_peek? hminus⟩
    · rw [if_neg heither]
      exact ⟨[], .none, rfl⟩
  generalize (if eitherAhead '+' '-' c.next then c.next.next else c.next) = signed at h hnext
  split at h
  · next hdigit =>
    obtain ⟨digits, hdigits, hrun⟩ := isDigits_run hdigit
    cases h
    refine ⟨mark :: (sign ++ digits), .given hletter hsign hdigits, rfl, ?_⟩
    rw [hbytes, hnext, hrun]
    simp
  · cases h

theorem skipExponent_complete {c : ByteCursor} {mark : UInt8} {exponent rest : List UInt8}
    (h : IsExponent (mark :: exponent)) (hbytes : c.bytes = mark :: (exponent ++ rest)) (hrest : Clear isDigit rest) :
    ∃ after, skipExponent c = .ok after ∧ after.bytes = rest := by
  cases h with
  | @given _ sign digits hletter hsign hdigits =>
    have hnext := ByteCursor.next_of_bytes hbytes
    obtain ⟨b, digits', hcons⟩ := List.exists_cons_of_ne_nil hdigits.nonempty
    -- Behind the sign the digits come next.
    have hsigned : (if eitherAhead '+' '-' c.next then c.next.next else c.next).bytes = digits ++ rest := by
      cases hsign with
      | none =>
        have hdigit : isDigit b = true := hdigits.decimal b (by rw [hcons]; exact List.mem_cons_self)
        have hpeek : c.next.peek? = some b := by
          apply ByteCursor.peek?_of_bytes
          rw [hnext, hcons]
          rfl
        have hneither : ¬ eitherAhead '+' '-' c.next = true := by
          intro heither
          rw [eitherAhead_iff, hpeek] at heither
          rcases heither with heq | heq
          · rw [Option.some.inj heq] at hdigit
            exact absurd hdigit (by decide)
          · rw [Option.some.inj heq] at hdigit
            exact absurd hdigit (by decide)
        rw [if_neg hneither, hnext, List.nil_append]
      | plus =>
        rw [if_pos (eitherAhead_iff.2 (.inl (ByteCursor.peek?_of_bytes hnext)))]
        exact ByteCursor.next_of_bytes hnext
      | minus =>
        rw [if_pos (eitherAhead_iff.2 (.inr (ByteCursor.peek?_of_bytes hnext)))]
        exact ByteCursor.next_of_bytes hnext
    unfold skipExponent
    simp only
    rw [if_pos (hdigits.ahead hsigned)]
    exact ⟨_, rfl, ByteCursor.dropWhile_of_bytes hsigned hdigits.decimal hrest⟩

/-- The exponent may be left out. -/
theorem skipScale_sound {c after : ByteCursor}
    (h : (if eitherAhead 'e' 'E' c then skipExponent c else .ok c) = .ok after) :
    ∃ exponent, IsExponent exponent ∧ c.bytes = exponent ++ after.bytes ∧
      (exponent = [] → ∀ b, after.bytes.head? = some b → b ≠ byteOf 'e' ∧ b ≠ byteOf 'E') := by
  by_cases heither : eitherAhead 'e' 'E' c = true
  · rw [if_pos heither] at h
    obtain ⟨mark, hpeek, hletter⟩ : ∃ mark, c.peek? = some mark ∧ (mark = byteOf 'e' ∨ mark = byteOf 'E') := by
      rcases eitherAhead_iff.1 heither with hpeek | hpeek
      · exact ⟨_, hpeek, .inl rfl⟩
      · exact ⟨_, hpeek, .inr rfl⟩
    obtain ⟨exponent, hexponent, hhead, hbytes⟩ := skipExponent_sound hpeek hletter h
    refine ⟨exponent, hexponent, hbytes, ?_⟩
    intro hnil
    rw [hnil] at hhead
    exact absurd hhead (by simp)
  · rw [if_neg heither] at h
    cases h
    refine ⟨[], .none, rfl, ?_⟩
    intro _ b hb
    rw [eitherAhead_iff] at heither
    constructor
    · intro heq
      exact heither (.inl (heq ▸ hb))
    · intro heq
      exact heither (.inr (heq ▸ hb))

theorem skipScale_complete {c : ByteCursor} {exponent rest : List UInt8} (h : IsExponent exponent)
    (hbytes : c.bytes = exponent ++ rest) (hrest : Clear goesOn rest) :
    ∃ after, (if eitherAhead 'e' 'E' c then skipExponent c else .ok c) = .ok after ∧ after.bytes = rest := by
  cases exponent with
  | nil =>
    have hneither : ¬ eitherAhead 'e' 'E' c = true := by
      intro heither
      rw [List.nil_append] at hbytes
      rw [eitherAhead_iff, ByteCursor.peek?, hbytes] at heither
      rcases heither with hhead | hhead
      · exact absurd (hrest _ hhead) (by decide)
      · exact absurd (hrest _ hhead) (by decide)
    rw [if_neg hneither]
    exact ⟨c, rfl, hbytes⟩
  | cons mark exponent =>
    have hletter : mark = byteOf 'e' ∨ mark = byteOf 'E' := by
      cases h with
      | given letter => exact letter
    have heither : eitherAhead 'e' 'E' c = true := by
      rw [eitherAhead_iff, ByteCursor.peek?_of_bytes hbytes, Option.some.injEq, Option.some.injEq]
      exact hletter
    rw [if_pos heither]
    exact skipExponent_complete h hbytes hrest.digit

theorem IsFraction.eq_nil {fraction : List UInt8} (h : IsFraction fraction) (hall : fraction.all isDigit = true) :
    fraction = [] := by
  cases h with
  | none => rfl
  | places hdigits =>
    rw [List.all_cons, Bool.and_eq_true] at hall
    exact absurd hall.1 (by decide)

theorem IsExponent.eq_nil {exponent : List UInt8} (h : IsExponent exponent) (hall : exponent.all isDigit = true) :
    exponent = [] := by
  cases h with
  | none => rfl
  | given hletter hsign hdigits =>
    rw [List.all_cons, not_isDigit_of_letter hletter] at hall
    cases hall

/-- Digits are those before the point if a zero at their head is all of them. -/
theorem isWhole_of_no_leading_zero {c : ByteCursor} {whole rest : List UInt8} (hdigits : IsDigits whole)
    (hbytes : c.bytes = whole ++ rest) (hzero : ¬ (c.peek? = some 48 ∧ digitAhead c.next = true)) : IsWhole whole := by
  refine ⟨hdigits, ?_⟩
  intro hhead
  cases whole with
  | nil => cases hhead
  | cons b more =>
    rw [List.head?_cons, Option.some.injEq] at hhead
    subst hhead
    cases more with
    | nil => rfl
    | cons b' more =>
      exfalso
      apply hzero
      refine ⟨ByteCursor.peek?_of_bytes hbytes, ?_⟩
      have hnext := ByteCursor.next_of_bytes hbytes
      rw [digitAhead_iff]
      exact ⟨b', ByteCursor.peek?_of_bytes hnext, hdigits.decimal b' (by simp)⟩

/-- What is skipped as a number is one. -/
theorem skipNumber_sound {c after : ByteCursor} (h : skipNumber c = .ok after) :
    ∃ raw, IsUnsigned raw ∧ c.bytes = raw ++ after.bytes ∧ (raw.all isDigit = true → Clear goesOn after.bytes) := by
  unfold skipNumber at h
  simp only at h
  split at h
  · cases h
  next hahead =>
  rw [Bool.not_eq_true, Bool.not_eq_false'] at hahead
  obtain ⟨whole, hdigits, hbytes⟩ := isDigits_run hahead
  split at h
  · cases h
  next hzero =>
  -- the run of digits is as long as it can be
  have hclear : Clear isDigit (c.dropWhile isDigit).bytes := by
    rw [ByteCursor.dropWhile_bytes]
    exact clear_dropWhile _ _
  have hwhole : IsWhole whole := isWhole_of_no_leading_zero hdigits hbytes hzero
  generalize c.dropWhile isDigit = rest at h hbytes hclear
  split at h
  · next hpoint =>
    -- The places after the point end the number, or its exponent does.
    split at h
    · cases h
    next hplaces =>
    rw [Bool.not_eq_true, Bool.not_eq_false'] at hplaces
    obtain ⟨places, hrow, hrun⟩ := isDigits_run hplaces
    obtain ⟨exponent, hexponent, hscale, -⟩ := skipScale_sound h
    refine ⟨whole ++ (byteOf '.' :: places ++ exponent), ⟨hwhole, .places hrow, hexponent⟩, ?_, ?_⟩
    · rw [hbytes, ByteCursor.bytes_of_peek? hpoint, hrun, hscale]
      simp
    · intro hall
      rw [List.all_append, List.all_append, Bool.and_eq_true, Bool.and_eq_true] at hall
      exact absurd ((IsFraction.places hrow).eq_nil hall.2.1) (List.cons_ne_nil _ _)
  · next hpoint =>
    -- Without a point only an exponent can follow.  Where none does, nothing goes on with the digits.
    obtain ⟨exponent, hexponent, hscale, hend⟩ := skipScale_sound h
    refine ⟨whole ++ ([] ++ exponent), ⟨hwhole, .none, hexponent⟩, by rw [hbytes, hscale]; simp, ?_⟩
    intro hall
    rw [List.all_append, List.nil_append, Bool.and_eq_true] at hall
    have hnil := hexponent.eq_nil hall.2
    rw [hnil, List.nil_append] at hscale
    intro b hb
    have hdigit := hclear b (by rw [hscale]; exact hb)
    have hne : b ≠ byteOf '.' := by
      intro heq
      apply hpoint
      rw [ByteCursor.peek?, hscale, hb, heq]
    simp [goesOn, hdigit, hne, hend hnil b hb]

/-- A number is skipped, whatever follows that does not go on with it. -/
theorem skipNumber_complete {c : ByteCursor} {raw rest : List UInt8} (h : IsUnsigned raw)
    (hbytes : c.bytes = raw ++ rest) (hrest : Clear goesOn rest) :
    ∃ after, skipNumber c = .ok after ∧ after.bytes = rest := by
  cases h with
  | @parts whole fraction exponent hwhole hfraction hexponent =>
    rw [List.append_assoc, List.append_assoc] at hbytes
    have hclear : Clear isDigit (exponent ++ rest) := hexponent.clear hrest.digit
    have hafter : (c.dropWhile isDigit).bytes = fraction ++ (exponent ++ rest) :=
      ByteCursor.dropWhile_of_bytes hbytes hwhole.decimal (hfraction.clear hclear)
    have hahead : digitAhead c = true := hwhole.toIsDigits.ahead hbytes
    have hzero := hwhole.no_leading_zero hbytes (hfraction.clear hclear)
    unfold skipNumber
    simp only
    rw [if_neg (by rw [hahead]; decide), if_neg hzero]
    cases hfraction with
    | none =>
      rw [if_neg]
      · exact skipScale_complete hexponent hafter hrest
      · intro hpoint
        rw [ByteCursor.peek?, hafter, List.nil_append] at hpoint
        cases hexponent with
        | none => exact absurd (hrest _ hpoint) (by decide)
        | given hletter hsign hdigits =>
          rw [List.cons_append, List.head?_cons, Option.some.injEq] at hpoint
          rw [hpoint] at hletter
          exact absurd hletter (by decide)
    | @places digits hrow =>
      have hplaces := ByteCursor.next_of_bytes hafter
      rw [if_pos (ByteCursor.peek?_of_bytes hafter), if_neg (by rw [hrow.ahead hplaces]; decide)]
      exact skipScale_complete hexponent (ByteCursor.dropWhile_of_bytes hplaces hrow.decimal hclear) hrest

/-! ## Section 4 - reading -/

theorem le_decimal_from (n : Nat) (digits : List UInt8) :
    n ≤ digits.foldl (fun n b => n * 10 + (b.toNat - 48)) n := by
  induction digits generalizing n with
  | nil => exact Nat.le_refl n
  | cons b digits ih =>
    rw [List.foldl_cons]
    have hstep := ih (n * 10 + (b.toNat - 48))
    omega

/-- Digits are added up as long as the sum can be read exactly, and no digit is left over just if the whole sum can. -/
theorem accumulate_spec {n : Nat} (hn : n ≤ maxNatural) (digits : List UInt8) :
    if digits.foldl (fun n b => n * 10 + (b.toNat - 48)) n ≤ maxNatural then
      accumulate n digits = (digits.foldl (fun n b => n * 10 + (b.toNat - 48)) n, [])
    else (accumulate n digits).2 ≠ [] := by
  induction digits generalizing n with
  | nil => rw [List.foldl_nil, if_pos hn, accumulate]
  | cons b digits ih =>
    rw [List.foldl_cons, accumulate]
    by_cases hsum : n * 10 + (b.toNat - 48) ≤ maxNatural
    · simp only [if_pos hsum]
      exact ih hsum
    · simp only [if_neg hsum]
      have hgrow := le_decimal_from (n * 10 + (b.toNat - 48)) digits
      rw [if_neg (by omega)]
      exact List.cons_ne_nil _ _

/-- A result holds no natural number. -/
def Unnatural (result : Except DocumentFault (Number × ByteCursor)) : Prop :=
  ∀ v, result.map Prod.fst ≠ .ok (.natural v)

theorem unnatural_error (fault : DocumentFault) : Unnatural (.error fault) := by
  intro v h
  cases h

theorem unnatural_float (x : Float) (after : ByteCursor) : Unnatural (.ok (.float x, after)) := by
  intro v h
  cases h

theorem floatOf_unnatural (positive : Bool) (digits : Nat) (exponent : Int) (c : ByteCursor) :
    Unnatural (floatOf positive digits exponent c) := by
  unfold floatOf
  split
  · exact unnatural_float _ _
  · exact unnatural_error _

theorem readExponent_unnatural (positive : Bool) (digits : Nat) (exponent : Int) (c : ByteCursor) :
    Unnatural (readExponent positive digits exponent c) := by
  unfold readExponent
  simp only
  repeat' split
  all_goals first
    | exact unnatural_error _
    | exact unnatural_float _ _
    | exact floatOf_unnatural _ _ _ _

theorem readPlaces_unnatural (positive : Bool) (digits : Nat) (exponent : Int) (c : ByteCursor) :
    Unnatural (readPlaces positive digits exponent c) := by
  unfold readPlaces readTail
  simp only
  repeat' split
  all_goals first
    | exact unnatural_error _
    | exact readExponent_unnatural _ _ _ _
    | exact floatOf_unnatural _ _ _ _

/-- A number that starts with its digits is read on after them. -/
theorem readNumber_of_whole {c : ByteCursor} {whole rest : List UInt8} (positive : Bool) (h : IsWhole whole)
    (hbytes : c.bytes = whole ++ rest) (hrest : Clear isDigit rest) :
    readNumber positive c =
      if (c.dropWhile isDigit).peek? = some (byteOf '.') then
        readPlaces positive (accumulate 0 whole).1 (accumulate 0 whole).2.length (c.dropWhile isDigit)
      else if eitherAhead 'e' 'E' (c.dropWhile isDigit) then
        readExponent positive (accumulate 0 whole).1 (accumulate 0 whole).2.length (c.dropWhile isDigit)
      else if (accumulate 0 whole).2 ≠ [] then
        floatOf positive (accumulate 0 whole).1 (accumulate 0 whole).2.length (c.dropWhile isDigit)
      else if positive then .ok (.natural (accumulate 0 whole).1, c.dropWhile isDigit)
      else if (accumulate 0 whole).1 = 0 ∨ maxNegative < (accumulate 0 whole).1 then
        .ok (.float (-Float.ofNat (accumulate 0 whole).1), c.dropWhile isDigit)
      else .ok (.negative (accumulate 0 whole).1, c.dropWhile isDigit) := by
  have hdigits : digitsAt c = whole := digitsAt_of_bytes hbytes h.decimal hrest
  have hzero := h.no_leading_zero hbytes hrest
  obtain ⟨b, more, hcons⟩ := List.exists_cons_of_ne_nil h.nonempty
  rw [hcons, List.cons_append] at hbytes
  have hdigit : isDigit b = true := h.decimal b (by rw [hcons]; exact List.mem_cons_self)
  unfold readNumber
  rw [ByteCursor.peek?_of_bytes hbytes]
  simp only [hdigit, Bool.not_true, Bool.false_eq_true, if_false]
  rw [if_neg, hdigits]
  rintro ⟨rfl, hnext⟩
  exact hzero ⟨ByteCursor.peek?_of_bytes hbytes, hnext⟩

/-- Where no natural number is read and none is spelled, there is none to agree on. -/
theorem Unnatural.iff {result : Except DocumentFault (Number × ByteCursor)} (h : Unnatural result) {raw : List UInt8}
    (hraw : naturalValue raw = none) (positive : Bool) (v : Nat) :
    result.map Prod.fst = .ok (.natural v) ↔ positive = true ∧ naturalValue raw = some v := by
  rw [hraw]
  constructor
  · intro hread
    exact absurd hread (h v)
  · rintro ⟨-, hsome⟩
    cases hsome

/-- What is more than a row of digits spells no natural number. -/
theorem naturalValue_append_eq_none {whole tail : List UInt8} (h : tail.all isDigit = false) :
    naturalValue (whole ++ tail) = none := by
  apply if_neg
  rintro ⟨hall, -⟩
  rw [List.all_append, h, Bool.and_false] at hall
  cases hall

section readings
variable {c : ByteCursor} {whole rest : List UInt8} (positive : Bool) (hwhole : IsWhole whole)
include hwhole

/-- With places after the point a float is read. -/
theorem readNumber_unnatural_of_point (hbytes : c.bytes = whole ++ byteOf '.' :: rest) :
    Unnatural (readNumber positive c) := by
  have hclear : Clear isDigit (byteOf '.' :: rest) := clear_cons (by decide) rest
  have hafter := ByteCursor.dropWhile_of_bytes hbytes hwhole.decimal hclear
  rw [readNumber_of_whole positive hwhole hbytes hclear, if_pos (ByteCursor.peek?_of_bytes hafter)]
  exact readPlaces_unnatural _ _ _ _

/-- With an exponent it is the same. -/
theorem readNumber_unnatural_of_letter {mark : UInt8} (hletter : mark = byteOf 'e' ∨ mark = byteOf 'E')
    (hbytes : c.bytes = whole ++ mark :: rest) : Unnatural (readNumber positive c) := by
  have hclear : Clear isDigit (mark :: rest) := clear_cons (not_isDigit_of_letter hletter) rest
  have hafter := ByteCursor.dropWhile_of_bytes hbytes hwhole.decimal hclear
  have hpeek : (c.dropWhile isDigit).peek? = some mark := ByteCursor.peek?_of_bytes hafter
  have hpoint : ¬ (c.dropWhile isDigit).peek? = some (byteOf '.') := by
    rw [hpeek, Option.some.injEq]
    rcases hletter with rfl | rfl
    · decide
    · decide
  have heither : eitherAhead 'e' 'E' (c.dropWhile isDigit) = true := by
    rw [eitherAhead_iff, hpeek, Option.some.injEq, Option.some.injEq]
    exact hletter
  rw [readNumber_of_whole positive hwhole hbytes hclear, if_neg hpoint, if_pos heither]
  exact readExponent_unnatural _ _ _ _

/-- Digits alone are a natural number if they are not too many, and if no sign stands before them. -/
theorem readNumber_natural_iff_of_digits (hbytes : c.bytes = whole ++ rest) (hclear : Clear goesOn rest) (v : Nat) :
    (readNumber positive c).map Prod.fst = .ok (.natural v) ↔ positive = true ∧ naturalValue whole = some v := by
  have hall : whole.all isDigit = true := List.all_eq_true.2 hwhole.decimal
  have hafter := ByteCursor.dropWhile_of_bytes hbytes hwhole.decimal hclear.digit
  have hpoint : ¬ (c.dropWhile isDigit).peek? = some (byteOf '.') := by
    rw [ByteCursor.peek?, hafter]
    intro hhead
    exact absurd (hclear _ hhead) (by decide)
  have hneither : ¬ eitherAhead 'e' 'E' (c.dropWhile isDigit) = true := by
    rw [eitherAhead_iff, ByteCursor.peek?, hafter]
    rintro (hhead | hhead)
    · exact absurd (hclear _ hhead) (by decide)
    · exact absurd (hclear _ hhead) (by decide)
  rw [readNumber_of_whole positive hwhole hbytes hclear.digit, if_neg hpoint, if_neg hneither]
  have hsum := accumulate_spec (Nat.zero_le _) whole
  change (if decimal whole ≤ maxNatural then accumulate 0 whole = (decimal whole, []) else _) at hsum
  by_cases hle : decimal whole ≤ maxNatural
  · have hvalue : naturalValue whole = some (decimal whole) := if_pos ⟨hall, hle⟩
    rw [if_pos hle] at hsum
    rw [hsum, if_neg (fun hne => hne rfl), hvalue]
    cases positive with
    | true => simp [Except.map]
    | false =>
      simp only [Bool.false_eq_true, if_false, false_and, iff_false]
      split
      · exact unnatural_float _ _ v
      · intro hread
        cases hread
  · have hvalue : naturalValue whole = none := if_neg fun hand => hle hand.2
    rw [if_neg hle] at hsum
    rw [if_pos hsum]
    exact (floatOf_unnatural _ _ _ _).iff hvalue positive v

end readings

/-- A natural number is read exactly if one is spelled, and it is the one that is spelled. -/
theorem readNumber_natural_iff {c : ByteCursor} {raw rest : List UInt8} (positive : Bool) (h : IsUnsigned raw)
    (hbytes : c.bytes = raw ++ rest) (hrest : raw.all isDigit = true → Clear goesOn rest) (v : Nat) :
    (readNumber positive c).map Prod.fst = .ok (.natural v) ↔ positive = true ∧ naturalValue raw = some v := by
  cases h with
  | @parts whole fraction exponent hwhole hfraction hexponent =>
    rw [List.append_assoc, List.append_assoc] at hbytes
    cases hfraction with
    | @places digits hrow =>
      have hnone : naturalValue (whole ++ (byteOf '.' :: digits ++ exponent)) = none :=
        naturalValue_append_eq_none (by rw [List.cons_append, List.all_cons]; rfl)
      exact (readNumber_unnatural_of_point positive hwhole hbytes).iff hnone positive v
    | none =>
      rw [List.nil_append] at hbytes hrest ⊢
      cases hexponent with
      | @given mark sign digits hletter hsign hrow =>
        have hnone : naturalValue (whole ++ (mark :: (sign ++ digits))) = none :=
          naturalValue_append_eq_none (by rw [List.all_cons, not_isDigit_of_letter hletter, Bool.false_and])
        exact (readNumber_unnatural_of_letter positive hwhole hletter hbytes).iff hnone positive v
      | none =>
        rw [List.nil_append] at hbytes
        rw [List.append_nil] at hrest ⊢
        have hclear := hrest (List.all_eq_true.2 hwhole.decimal)
        exact readNumber_natural_iff_of_digits positive hwhole hbytes hclear v

/-! ## Section 5 - numbers in a document -/

/-- A number as a reader finds it is the one that is spelled. -/
structure NumberShown (n : Scalar Number) (raw : List UInt8) : Prop where
  skipped : n.skipped = .ok ()
  natural : ∀ v, n.value = .ok (.natural v) ↔ naturalValue raw = some v

theorem naturalValue_minus (raw : List UInt8) : naturalValue (byteOf '-' :: raw) = none := by
  apply if_neg
  rintro ⟨hall, -⟩
  rw [List.all_cons, Bool.and_eq_true] at hall
  exact absurd hall.1 (by decide)

theorem numberAt_sound {c after : ByteCursor} {positive : Bool} (h : (numberAt positive c).2 = .ok after) :
    ∃ raw, IsUnsigned raw ∧ c.bytes = raw ++ after.bytes ∧
      NumberShown (numberAt positive c).1 (if positive then raw else byteOf '-' :: raw) := by
  change skipNumber c = .ok after at h
  obtain ⟨raw, hraw, hbytes, hclear⟩ := skipNumber_sound h
  refine ⟨raw, hraw, hbytes, ?_, ?_⟩
  · unfold numberAt
    simp only [h]
    rfl
  · intro v
    refine (readNumber_natural_iff positive hraw hbytes hclear v).trans ?_
    cases positive with
    | true => simp
    | false => simp [naturalValue_minus]

theorem numberAt_complete {c : ByteCursor} {raw rest : List UInt8} (positive : Bool) (h : IsUnsigned raw)
    (hbytes : c.bytes = raw ++ rest) (hrest : Clear goesOn rest) :
    ∃ after, (numberAt positive c).2 = .ok after ∧ after.bytes = rest ∧
      NumberShown (numberAt positive c).1 (if positive then raw else byteOf '-' :: raw) := by
  obtain ⟨after, hskip, hafter⟩ := skipNumber_complete h hbytes hrest
  refine ⟨after, hskip, hafter, ?_, ?_⟩
  · unfold numberAt
    simp only [hskip]
    rfl
  · intro v
    refine (readNumber_natural_iff positive h hbytes (fun _ => hrest) v).trans ?_
    cases positive with
    | true => simp
    | false => simp [naturalValue_minus]

end HotReload
