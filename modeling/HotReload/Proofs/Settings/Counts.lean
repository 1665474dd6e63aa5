import HotReload.Settings.CommandLine
import Mathlib.Data.List.Basic
import Mathlib.Data.List.Induction

/-! # Counts on a command line

    Which texts are counts, and what is wrong with the others.  A count is read digit by
    digit, so the fault is found at the first character with which the digits so far cease
    to be a number that can be read, whatever comes behind it. -/

namespace HotReload

/-! ## Section 1 - digits -/

/-- Digits of a number that can be read. -/
structure Readable (digits : List Char) : Prop where
  decimal : ∀ c ∈ digits, c.isDigit = true
  bounded : Nat.ofDigitChars 10 digits 0 ≤ Document.maxNatural

/-- Where digits cease to be a number that can be read, and why. -/
inductive StopsAt (digits : List Char) : NumberFault → Prop where
  | badDigit {front rest : List Char} {c : Char} (split : digits = front ++ c :: rest) (before : Readable front)
      (fault : c.isDigit = false) : StopsAt digits .badDigit
  | tooLarge {front rest : List Char} {c : Char} (split : digits = front ++ c :: rest) (before : Readable front)
      (digit : c.isDigit = true) (fault : Document.maxNatural < Nat.ofDigitChars 10 (front ++ [c]) 0) :
      StopsAt digits .tooLarge

theorem readable_nil : Readable [] := ⟨fun _ hc => absurd hc List.not_mem_nil, Nat.zero_le _⟩

theorem ofDigitChars_snoc (front : List Char) (c : Char) :
    Nat.ofDigitChars 10 (front ++ [c]) 0 = Nat.ofDigitChars 10 front 0 * 10 + (c.toNat - '0'.toNat) := by
  rw [Nat.ofDigitChars_append, Nat.ofDigitChars_cons, Nat.ofDigitChars_nil, Nat.mul_comm]

/-- The front of a number is no greater than the number. -/
theorem Readable.of_snoc {front : List Char} {c : Char} (h : Readable (front ++ [c])) : Readable front := by
  have hvalue := ofDigitChars_snoc front c
  have hbounded := h.bounded
  refine ⟨?_, by omega⟩
  intro d hd
  exact h.decimal d (List.mem_append_left _ hd)

theorem Readable.of_append {front rest : List Char} (h : Readable (front ++ rest)) : Readable front := by
  induction rest using List.reverseRecOn with
  | nil => simpa using h
  | append_singleton rest c ih =>
    rw [← List.append_assoc] at h
    exact ih h.of_snoc

/-- Digits are a number that can be read, or they cease to be one somewhere. -/
theorem readable_or_stopsAt (digits : List Char) : Readable digits ∨ ∃ fault, StopsAt digits fault := by
  induction digits using List.reverseRecOn with
  | nil => exact .inl readable_nil
  | append_singleton front c ih =>
    rcases ih with hfront | ⟨fault, hstops⟩
    · cases hdigit : c.isDigit with
      | false => exact .inr ⟨_, .badDigit rfl hfront hdigit⟩
      | true =>
        by_cases hle : Nat.ofDigitChars 10 (front ++ [c]) 0 ≤ Document.maxNatural
        · refine .inl ⟨?_, hle⟩
          intro d hd
          rcases List.mem_append.1 hd with hd | hd
          · exact hfront.decimal d hd
          · rw [List.mem_singleton.1 hd]
            exact hdigit
        · exact .inr ⟨_, .tooLarge rfl hfront hdigit (by omega)⟩
    · -- What comes behind the place does not matter.
      right
      cases hstops with
      | badDigit hsplit hbefore hfault =>
        exact ⟨_, .badDigit (by rw [hsplit, List.append_assoc, List.cons_append]) hbefore hfault⟩
      | tooLarge hsplit hbefore hdigit hfault =>
        exact ⟨_, .tooLarge (by rw [hsplit, List.append_assoc, List.cons_append]) hbefore hdigit hfault⟩

/-! ## Section 2 - reading digits -/

/-- As long as the number can be read, reading goes on to what comes next. -/
theorem readDigits_append (front : List Char) {more : List Char} (h : Readable (front ++ more)) (rest : List Char) :
    readDigits (Nat.ofDigitChars 10 front 0) (more ++ rest) =
      readDigits (Nat.ofDigitChars 10 (front ++ more) 0) rest := by
  induction more generalizing front with
  | nil => rw [List.append_nil, List.nil_append]
  | cons c more ih =>
    have hassoc : front ++ c :: more = front ++ [c] ++ more := by simp
    rw [hassoc] at h ⊢
    have hnext : Readable (front ++ [c]) := h.of_append
    have hdigit : c.isDigit = true := hnext.decimal c (List.mem_append_right _ List.mem_cons_self)
    have hbounded := hnext.bounded
    rw [ofDigitChars_snoc] at hbounded
    rw [List.cons_append, readDigits]
    simp only [hdigit, Bool.not_true, Bool.false_eq_true, if_false]
    rw [if_pos hbounded, ← ofDigitChars_snoc]
    exact ih _ h

theorem readDigits_of_readable {digits : List Char} (h : Readable digits) :
    readDigits 0 digits = .ok (Nat.ofDigitChars 10 digits 0) := by
  have hread := readDigits_append [] h []
  rwa [List.append_nil] at hread

theorem readDigits_of_stopsAt {digits : List Char} {fault : NumberFault} (h : StopsAt digits fault) :
    readDigits 0 digits = .error fault := by
  cases h with
  | @badDigit front rest c hsplit hbefore hfault =>
    have hread := readDigits_append [] hbefore (c :: rest)
    rw [Nat.ofDigitChars_nil, List.nil_append] at hread
    rw [hsplit, hread, readDigits]
    simp [hfault]
  | @tooLarge front rest c hsplit hbefore hdigit hfault =>
    have hread := readDigits_append [] hbefore (c :: rest)
    rw [Nat.ofDigitChars_nil, List.nil_append] at hread
    rw [ofDigitChars_snoc] at hfault
    rw [hsplit, hread, readDigits]
    simp only [hdigit, Bool.not_true, Bool.false_eq_true, if_false]
    rw [if_neg (by omega)]

/-! ## Section 3 - counts -/

/-- The characters of a count behind its sign.  A sign that stands alone is no sign. -/
def unsigned : List Char → List Char
  | '+' :: c :: rest => c :: rest
  | cs => cs

/-- A text is a count. -/
structure Counts (s : String) (n : Nat) : Prop where
  nonempty : s ≠ ""
  readable : Readable (unsigned s.toList)
  value : Nat.ofDigitChars 10 (unsigned s.toList) 0 = n

/-- A text is no count, for a reason. -/
inductive NumberFault.Of (s : String) : NumberFault → Prop where
  | empty (h : s = "") : NumberFault.Of s .empty
  | stops {fault : NumberFault} (nonempty : s ≠ "") (h : StopsAt (unsigned s.toList) fault) : NumberFault.Of s fault

theorem readCount_of_ne_empty {s : String} (h : s ≠ "") : readCount s = readDigits 0 (unsigned s.toList) := by
  have hne : s.toList ≠ [] := by simpa using h
  unfold readCount
  split
  · next hnil => exact absurd hnil hne
  · next hplus =>
    rw [hplus]
    rfl
  · next digits hmore hplus =>
    rw [hplus]
    cases digits with
    | nil => exact absurd rfl hmore
    | cons c rest => rfl
  · next hplain =>
    congr 1
    unfold unsigned
    split
    · next c rest hlist => exact absurd hlist (hplain _)
    · rfl

theorem readCount_eq_ok_iff {s : String} {n : Nat} : readCount s = .ok n ↔ Counts s n := by
  constructor
  · intro h
    have hs : s ≠ "" := by
      rintro rfl
      cases h
    rw [readCount_of_ne_empty hs] at h
    rcases readable_or_stopsAt (unsigned s.toList) with hread | ⟨fault, hstops⟩
    · rw [readDigits_of_readable hread] at h
      cases h
      exact ⟨hs, hread, rfl⟩
    · rw [readDigits_of_stopsAt hstops] at h
      cases h
  · intro h
    rw [readCount_of_ne_empty h.nonempty, readDigits_of_readable h.readable, h.value]

theorem readCount_eq_error_iff {s : String} {fault : NumberFault} : readCount s = .error fault ↔ fault.Of s := by
  constructor
  · intro h
    by_cases hs : s = ""
    · subst hs
      cases h
      exact .empty rfl
    · rw [readCount_of_ne_empty hs] at h
      rcases readable_or_stopsAt (unsigned s.toList) with hread | ⟨fault', hstops⟩
      · rw [readDigits_of_readable hread] at h
        cases h
      · rw [readDigits_of_stopsAt hstops] at h
        cases h
        exact .stops hs hstops
  · intro h
    cases h with
    | empty hs =>
      subst hs
      rfl
    | stops hs hstops => rw [readCount_of_ne_empty hs, readDigits_of_stopsAt hstops]

end HotReload
