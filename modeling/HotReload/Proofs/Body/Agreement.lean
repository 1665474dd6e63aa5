import HotReload.Body.Grammar
import HotReload.Proofs.Body.Words

/-! # Readings that agree

    Two readers agree at some words if they read the same there.  What holds of what they
    read is told with it, and above all how many words they leave, since whether the next
    two readers agree may depend on that. -/

namespace HotReload.Body.Grammar

open Lexer (Ended)

/-! ## Section 1 - readings that agree -/

/-- Words that end with the end of the body, and fewer than a number. -/
structure Short (k : Nat) (words : List Lexeme) : Prop where
  ended : Ended words
  lt : words.length < k

theorem Short.mono {k k' : Nat} {words : List Lexeme} (h : Short k words) (hle : k ≤ k') : Short k' words :=
  ⟨h.ended, Nat.lt_of_lt_of_le h.lt hle⟩

theorem Short.exists_succ {k : Nat} {words : List Lexeme} (h : Short k words) : ∃ j, k = j + 1 :=
  Nat.exists_eq_succ_of_ne_zero (Nat.ne_zero_of_lt h.lt)

/-- Two readers read the same from here, and what they read has a property, together with the words that are left. -/
structure Alike (s : Progress) {α : Type} (Q : α → List Lexeme → Prop) (p q : Parse α) : Prop where
  same : p s = q s
  leaves : ∀ a s', p s = .ok (a, s') → Q a s'.lexemes

section agreement
variable {α β : Type} {s : Progress} {P : α → List Lexeme → Prop} {Q : β → List Lexeme → Prop} {k : Nat}

/-- The next word is not the end of the body. -/
def Starts (s : Progress) : Prop := ∃ lexeme, s.lexemes.head? = some lexeme ∧ lexeme.token ≠ .eof

theorem ne_eof_of_isSign {token : Token} {sign : String} (h : Token.isSign token sign = true) : token ≠ .eof := by
  rintro rfl
  cases h

theorem bind_apply (p : Parse α) (f : α → Parse β) (s : Progress) :
    (p >>= f) s = Except.bind (p s) fun result => f result.1 result.2 := rfl

namespace Alike

theorem pure {a : α} (h : P a s.lexemes) : Alike s P (Pure.pure a) (Pure.pure a) where
  same := rfl
  leaves := by
    intro b s' heq
    cases heq
    exact h

theorem throw (fault : ParseFault) : Alike s P (throw fault) (throw fault) where
  same := rfl
  leaves := nofun

theorem refuse (lexeme : Lexeme) (cause : ParseCause) :
    Alike s P (Grammar.refuse lexeme cause) (Grammar.refuse lexeme cause) := by
  unfold Grammar.refuse
  split
  · exact .throw _
  · exact .throw _

theorem bind {p q : Parse α} {f g : α → Parse β} (h : Alike s P p q)
    (hf : ∀ a s', P a s'.lexemes → Alike s' Q (f a) (g a)) : Alike s Q (p >>= f) (q >>= g) := by
  cases hp : p s with
  | error fault =>
    have hq : q s = .error fault := h.same ▸ hp
    constructor
    · rw [bind_apply, bind_apply, hp, hq]
      rfl
    · intro b s' heq
      rw [bind_apply, hp] at heq
      cases heq
  | ok result =>
    have hq : q s = .ok result := h.same ▸ hp
    have hrest := hf result.1 result.2 (h.leaves _ _ hp)
    constructor
    · rw [bind_apply, bind_apply, hp, hq]
      exact hrest.same
    · intro b s' heq
      rw [bind_apply, hp] at heq
      exact hrest.leaves b s' heq

/-- Behind what is read at once the two readers need not agree. -/
theorem stop_bind {p : Parse α} {f g : α → Parse β} (h : Alike s (fun _ _ => False) p p) :
    Alike s Q (p >>= f) (p >>= g) :=
  h.bind fun _ _ hnever => hnever.elim

/-- A reader that leaves fewer than a number of words leaves fewer than any larger number. -/
theorem weaken {k k' : Nat} {p q : Parse α} (h : Alike s (fun _ => Short k) p q) (hle : k ≤ k') :
    Alike s (fun _ => Short k') p q :=
  ⟨h.same, fun a s' heq => (h.leaves a s' heq).mono hle⟩

/-- Readers that differ in what they do inside a scope. -/
theorem withScope {p q : Parse α} (h : Alike s P p q) : Alike s P (Grammar.withScope p) (Grammar.withScope q) := by
  have hrun (p : Parse α) : Grammar.withScope p s =
      (p s).map fun result => (result.1, { result.2 with scope := s.scope }) := by
    show Except.bind (p s) (fun result => _) = _
    cases p s with
    | error fault => rfl
    | ok result => rfl
  constructor
  · rw [hrun, hrun, h.same]
  · intro a s' heq
    rw [hrun] at heq
    cases hp : p s with
    | error fault =>
      rw [hp] at heq
      cases heq
    | ok result =>
      rw [hp] at heq
      cases heq
      exact h.leaves result.1 result.2 hp

theorem retold {p q : Parse α} (h : Alike s P p q) (cause : ParseCause) :
    Alike s P (Grammar.retold cause p) (Grammar.retold cause q) := by
  constructor
  · unfold Grammar.retold
    rw [h.same]
  · intro a s' heq
    unfold Grammar.retold at heq
    cases hp : p s with
    | error fault =>
      rw [hp] at heq
      cases heq
    | ok result =>
      rw [hp] at heq
      cases heq
      exact h.leaves _ _ hp

theorem deeper_bind {r : Region} {place : Place} {f g : Region → Parse β} (hf : ∀ r, Alike s Q (f r) (g r)) :
    Alike s Q (deeper r place >>= f) (deeper r place >>= g) := by
  unfold deeper
  split
  · exact hf _
  · exact ⟨rfl, nofun⟩

end Alike

/-! ## Section 2 - readers that take no words -/

/-- A reader that leaves the words as they are. -/
def Still (p : Parse α) : Prop := ∀ s a s', p s = .ok (a, s') → s'.lexemes = s.lexemes

namespace Still

theorem pure (a : α) : Still (Pure.pure a) := by
  intro s b s' heq
  cases heq
  rfl

theorem throw (fault : ParseFault) : Still (throw fault : Parse α) := nofun

theorem refuse (lexeme : Lexeme) (cause : ParseCause) : Still (Grammar.refuse lexeme cause : Parse α) := by
  unfold Grammar.refuse
  split
  · exact .throw _
  · exact .throw _

theorem bind {p : Parse α} {f : α → Parse β} (hp : Still p) (hf : ∀ a, Still (f a)) : Still (p >>= f) := by
  intro s b s' heq
  rw [bind_apply] at heq
  cases hread : p s with
  | error fault =>
    rw [hread] at heq
    cases heq
  | ok result =>
    rw [hread] at heq
    exact (hf result.1 result.2 b s' heq).trans (hp s result.1 result.2 hread)

theorem get : Still (get : Parse Progress) := by
  intro s b s' heq
  cases heq
  rfl

theorem modify {f : Progress → Progress} (hf : ∀ s, (f s).lexemes = s.lexemes) : Still (modify f : Parse PUnit) := by
  intro s b s' heq
  cases heq
  exact hf s

theorem peek : Still peek := by
  refine get.bind fun s => ?_
  split
  · exact .pure _
  · exact .pure _

theorem bringIn (name : String) (constant : Bool) : Still (bringIn name constant) := .modify fun _ => rfl

theorem ensureBool (e : Expr) : Still (ensureBool e) := by
  unfold Grammar.ensureBool
  split
  · exact .throw _
  · exact .pure _

theorem ensureIterable (e : Expr) : Still (ensureIterable e) := by
  unfold Grammar.ensureIterable
  split
  · exact .pure _
  · exact .throw _
  · split
    · exact .throw _
    · exact .pure _

theorem join (lexeme : Lexeme) (left right : Expr) : Still (join lexeme left right) := by
  unfold Grammar.join
  split
  · exact (ensureBool _).bind fun _ => (ensureBool _).bind fun _ => .pure _
  · exact (ensureBool _).bind fun _ => (ensureBool _).bind fun _ => .pure _
  · exact .pure _
  · exact .pure _
  · exact .pure _
  · split
    · exact .pure _
    · exact .refuse _ _

theorem checkTarget (e : Expr) : Still (checkTarget e) := by
  unfold Grammar.checkTarget
  split
  · exact .pure _
  · refine get.bind fun s => ?_
    split
    · exact .throw _
    · exact .pure _
  · split
    · exact .throw _
    · split
      · exact .pure _
      · exact .pure _
      · exact .throw _
  all_goals exact .throw _

theorem checkCases (ranged : Bool) (cases : List Expr) : Still (checkCases ranged cases) := by
  induction cases generalizing ranged with
  | nil => exact .pure _
  | cons e es ih =>
    unfold Grammar.checkCases
    split
    · exact .throw _
    · split
      · exact .throw _
      · exact ih _

theorem ensureNoBlock : Still ensureNoBlock := by
  refine peek.bind fun lexeme => ?_
  split
  · exact .refuse _ _
  · exact .pure _

theorem ensureNoAssignment : Still ensureNoAssignment := by
  refine peek.bind fun lexeme => ?_
  split
  · exact .refuse _ _
  · exact .refuse _ _
  · exact .pure _

end Still

/-! ## Section 3 - readers of words -/

theorem peek_eq {lexeme : Lexeme} (h : s.lexemes.head? = some lexeme) : peek s = .ok (lexeme, s) := by
  obtain ⟨lexemes, scope, functions⟩ := s
  cases lexemes with
  | nil => cases h
  | cons first more =>
    cases h
    rfl

/-- A word that is taken is not there any more, unless it is the end of the body. -/
theorem next_eq {lexeme : Lexeme} (hs : Short (k + 1) s.lexemes) (h : s.lexemes.head? = some lexeme) :
    ∃ s', next s = .ok (lexeme, s') ∧ Short (k + 1) s'.lexemes ∧ (lexeme.token ≠ .eof → Short k s'.lexemes) := by
  obtain ⟨lexemes, scope, functions⟩ := s
  obtain ⟨hended, hlt⟩ := hs
  cases hended with
  | last hlast =>
    cases h
    exact ⟨⟨[lexeme], scope, functions⟩, rfl, ⟨.last hlast, hlt⟩, fun hne => absurd hlast hne⟩
  | @cons first more hmore =>
    cases h
    cases more with
    | nil => cases hmore
    | cons second more =>
      have hshort : Short k (second :: more) := ⟨hmore, Nat.lt_of_succ_lt_succ hlt⟩
      exact ⟨⟨second :: more, scope, functions⟩, rfl, hshort.mono (Nat.le_succ k), fun _ => hshort⟩

theorem exists_head (hs : Ended s.lexemes) : ∃ lexeme, s.lexemes.head? = some lexeme := by
  obtain ⟨lexemes, scope, functions⟩ := s
  cases hs with
  | last => exact ⟨_, rfl⟩
  | cons => exact ⟨_, rfl⟩

namespace Short

/-- Behind a reader that leaves the words as they are. -/
theorem still_bind {p : Parse α} {f g : α → Parse β} (h : Short k s.lexemes) (hp : Still p)
    (hf : ∀ a s', Short k s'.lexemes → Alike s' Q (f a) (g a)) : Alike s Q (p >>= f) (p >>= g) :=
  Alike.bind (P := fun _ => Short k) ⟨rfl, fun a s' heq => hp s a s' heq ▸ h⟩ hf

/-- A look at the next word. -/
theorem peek_bind {f g : Lexeme → Parse β} (h : Short k s.lexemes)
    (hf : ∀ lexeme, s.lexemes.head? = some lexeme → Alike s Q (f lexeme) (g lexeme)) :
    Alike s Q (peek >>= f) (peek >>= g) := by
  obtain ⟨lexeme, hhead⟩ := exists_head h.ended
  have hrun (f : Lexeme → Parse β) : (peek >>= f) s = f lexeme s := by
    rw [bind_apply, peek_eq hhead]
    rfl
  have hrest := hf lexeme hhead
  exact ⟨by rw [hrun, hrun, hrest.same], fun b s' heq => hrest.leaves b s' (hrun f ▸ heq)⟩

/-- A word that may be the end of the body. -/
theorem start_bind {f g : Lexeme → Parse β} (h : Short (k + 1) s.lexemes)
    (hf : ∀ lexeme s', s.lexemes.head? = some lexeme → Short (k + 1) s'.lexemes →
      (lexeme.token ≠ .eof → Short k s'.lexemes) → Alike s' Q (f lexeme) (g lexeme)) :
    Alike s Q (next >>= f) (next >>= g) := by
  obtain ⟨lexeme, hhead⟩ := exists_head h.ended
  obtain ⟨s', hnext, hle, hlt⟩ := next_eq h hhead
  have hrun (f : Lexeme → Parse β) : (next >>= f) s = f lexeme s' := by
    rw [bind_apply, hnext]
    rfl
  have hrest := hf lexeme s' hhead hle hlt
  exact ⟨by rw [hrun, hrun, hrest.same], fun b s'' heq => hrest.leaves b s'' (hrun f ▸ heq)⟩

/-- The word that has been looked at is taken. -/
theorem take_bind {f g : Lexeme → Parse β} (h : Short (k + 1) s.lexemes) (hstarts : Starts s)
    (hf : ∀ lexeme s', Short k s'.lexemes → Alike s' Q (f lexeme) (g lexeme)) :
    Alike s Q (next >>= f) (next >>= g) := by
  obtain ⟨first, hfirst, hne⟩ := hstarts
  refine h.start_bind fun lexeme s' hhead _ hlt => hf lexeme s' (hlt ?_)
  rw [hfirst] at hhead
  cases hhead
  exact hne

theorem next_bind {f g : Lexeme → Parse β} (h : Short k s.lexemes)
    (hf : ∀ lexeme s', Short k s'.lexemes → Alike s' Q (f lexeme) (g lexeme)) :
    Alike s Q (next >>= f) (next >>= g) := by
  obtain ⟨j, rfl⟩ := h.exists_succ
  exact h.start_bind fun lexeme s' _ hle _ => hf lexeme s' hle

theorem takeSign_bind {sign : String} {f g : Bool → Parse β} (h : Short k s.lexemes)
    (hf : ∀ taken s', Short k s'.lexemes → Alike s' Q (f taken) (g taken)) :
    Alike s Q (takeSign sign >>= f) (takeSign sign >>= g) := by
  refine Alike.bind (P := fun _ => Short k) ?_ hf
  refine h.peek_bind fun lexeme _ => ?_
  split
  · exact h.next_bind fun _ _ h => .pure h
  · exact .pure h

/-- The name of a variable is a word. -/
theorem variableName_bind {f g : String × Place → Parse β} (h : Short (k + 1) s.lexemes)
    (hf : ∀ found s', Short k s'.lexemes → Alike s' Q (f found) (g found)) :
    Alike s Q (variableName >>= f) (variableName >>= g) := by
  refine Alike.bind (P := fun _ => Short k) ?_ hf
  refine h.start_bind fun lexeme s' _ _ hlt => ?_
  split
  · next hname => exact .pure (hlt (by rw [hname]; nofun))
  · exact .refuse _ _
  · exact .refuse _ _

theorem name_bind {f g : String × Place → Parse β} (h : Short k s.lexemes)
    (hf : ∀ found s', Short k s'.lexemes → Alike s' Q (f found) (g found)) :
    Alike s Q (variableName >>= f) (variableName >>= g) := by
  obtain ⟨j, rfl⟩ := h.exists_succ
  exact h.variableName_bind fun found s' h => hf found s' (h.mono (Nat.le_succ j))

theorem loopVariables_bind {f g : String × Option String → Parse β} (h : Short k s.lexemes)
    (hf : ∀ names s', Short k s'.lexemes → Alike s' Q (f names) (g names)) :
    Alike s Q (loopVariables >>= f) (loopVariables >>= g) := by
  refine Alike.bind (P := fun _ => Short k) ?_ hf
  refine h.takeSign_bind fun paired s₁ h₁ => ?_
  split
  · refine h₁.name_bind fun name s₂ h₂ => h₂.next_bind fun comma s₃ h₃ => ?_
    split
    · refine h₃.name_bind fun counter s₄ h₄ => ?_
      dsimp only
      split
      · exact .throw _
      · refine h₄.next_bind fun closing s₅ h₅ => ?_
        split
        · exact .pure h₅
        · exact .refuse _ _
    · exact .refuse _ _
  · exact h₁.name_bind fun _ _ h => .pure h

theorem armEnd_bind {needsComma : Bool} {f g : Unit → Parse β} (h : Short k s.lexemes)
    (hf : ∀ found s', Short k s'.lexemes → Alike s' Q (f found) (g found)) :
    Alike s Q (armEnd needsComma >>= f) (armEnd needsComma >>= g) := by
  refine Alike.bind (P := fun _ => Short k) ?_ hf
  refine h.peek_bind fun lexeme _ => ?_
  split
  · exact h.next_bind fun _ _ h => .pure h
  · exact .pure h
  · exact .refuse _ _
  · split
    · exact .refuse _ _
    · exact .pure h

/-- Behind an operand.  What binds is not the end of the body. -/
theorem strength_bind {r : Region} {f g : Nat → Parse β} (h : Short k s.lexemes)
    (hf : ∀ here s', Short k s'.lexemes → (0 < here → Starts s') → Alike s' Q (f here) (g here)) :
    Alike s Q (strengthAfterOperand r >>= f) (strengthAfterOperand r >>= g) := by
  have hstill : Alike s (fun here words => words = s.lexemes ∧ (0 < here → Starts s)) (strengthAfterOperand r)
      (strengthAfterOperand r) := by
    refine h.peek_bind fun lexeme hhead => ?_
    split
    · split
      · exact .pure ⟨rfl, nofun⟩
      · exact .refuse _ _
    · refine .pure ⟨rfl, fun hpos => ⟨lexeme, hhead, ?_⟩⟩
      intro heof
      rw [heof] at hpos
      split at hpos
      · cases hpos
      · cases hpos
  refine hstill.bind fun here s' ⟨hwords, hstarts⟩ => hf here s' (hwords ▸ h) ?_
  intro hpos
  obtain ⟨lexeme, hhead, hne⟩ := hstarts hpos
  exact ⟨lexeme, hwords ▸ hhead, hne⟩

end Short

end agreement

end HotReload.Body.Grammar
