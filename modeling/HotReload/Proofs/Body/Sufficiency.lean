import HotReload.Proofs.Body.Agreement

/-! # The measure of a reading

    The readers of phrases go on within a measure.  The measure is bookkeeping and no bound:
    every chain of readers that call each other without taking a word is short, so sixteen
    for each word still to come cover all calls.  What is read does not depend on the
    measure, as long as it is at least that large.

    This is shown as congruence.  Two readings of the same words agree if the smaller one
    of their measures covers the words.  Each reader has a *rank*, which is greater than
    the ranks of those readers that it calls before it has taken a word.  Behind the first
    word ranks no longer matter, since every rank is less than a word is worth. -/

namespace HotReload.Body

namespace Grammar

/-! ## Section 1 - readers that call each other -/

section steadiness
variable {α : Type} {rank n slack k : Nat} {p q : Parse α} {s : Progress}

/-- A reader with two measures reads the same, if the first one covers the words to come and the reader's rank.  It
    leaves fewer words than there were, or no more of them. -/
structure Steady (rank n slack : Nat) (p q : Parse α) : Prop where
  rank_lt : rank < 16
  slack_le : slack ≤ 1
  alike : ∀ (k : Nat) (s : Progress), Short (k + 1) s.lexemes → 16 * k + rank < n →
    Alike s (fun _ => Short (k + slack)) p q

/-- The same where the reader is called at a word that tells it. -/
def SteadyAtWord (n : Nat) (p q : Parse α) : Prop :=
  ∀ (k : Nat) (s : Progress), Short (k + 1) s.lexemes → Starts s → 16 * k < n → Alike s (fun _ => Short k) p q

/-- Where a statement may stand as an expression.  Only if it does it takes words. -/
def SteadyIfSome (n : Nat) (p q : Parse (Option α)) : Prop :=
  ∀ (k : Nat) (s : Progress), Short (k + 1) s.lexemes → 16 * k + 1 < n →
    Alike s (fun found => Short (k + if found.isSome then 0 else 1)) p q

/-- Only at the end of the body a statement takes no words. -/
def SteadyIfStarts (n : Nat) (p q : Parse α) : Prop :=
  ∀ (k : Nat) (s : Progress), Short (k + 1) s.lexemes → 16 * k + 6 < n →
    Alike s (fun _ words => Short (k + 1) words ∧ (Starts s → Short k words)) p q

/-- A measure of zero covers nothing. -/
theorem Steady.of_zero (hrank : rank < 16) (hslack : slack ≤ 1) : Steady rank 0 slack p q :=
  ⟨hrank, hslack, fun _ _ _ hn => absurd hn (Nat.not_lt_zero _)⟩

/-- Behind a word the measure that has covered the word covers every rank. -/
theorem Steady.behind (h : Steady rank n slack p q) (hs : Short k s.lexemes) (hk : 16 * k ≤ n) :
    Alike s (fun _ => Short k) p q := by
  obtain ⟨j, rfl⟩ := hs.exists_succ
  have hrank := h.rank_lt
  exact (h.alike j s hs (by omega)).weaken (Nat.add_le_add_left h.slack_le j)

theorem SteadyAtWord.behind (h : SteadyAtWord n p q) (hs : Short k s.lexemes) (hstarts : Starts s) (hk : 16 * k ≤ n) :
    Alike s (fun _ => Short k) p q := by
  obtain ⟨j, rfl⟩ := hs.exists_succ
  exact (h j s hs hstarts (by omega)).weaken (Nat.le_succ j)

theorem SteadyIfStarts.behind (h : SteadyIfStarts n p q) (hs : Short k s.lexemes) (hk : 16 * k ≤ n) :
    Alike s (fun _ => Short k) p q := by
  obtain ⟨j, rfl⟩ := hs.exists_succ
  have hread := h j s hs (by omega)
  exact ⟨hread.same, fun a s' heq => (hread.leaves a s' heq).1⟩

end steadiness

/-- All readers with two measures, of which the first need not be the larger one. -/
structure Congruent (n m : Nat) : Prop where
  params (function : String) (read : List String) :
    Steady 0 n 1 (params function n read) (params function m read)
  expr (r : Region) : Steady 4 n 0 (expr n r) (expr m r)
  operators (r : Region) (parent : Nat) (last : Place) (left : Expr) :
    Steady 0 n 1 (operators n r parent last left) (operators m r parent last left)
  unary (r : Region) : Steady 3 n 0 (unary n r) (unary m r)
  primary (r : Region) : Steady 2 n 0 (primary n r) (primary m r)
  compound (r : Region) : SteadyIfSome n (compound? n r) (compound? m r)
  steps (r : Region) (read : List Step) : Steady 0 n 1 (steps n r read) (steps m r read)
  property (r : Region) (read : List Step) : Steady 0 n 1 (property n r read) (property m r read)
  indexing (r : Region) (place : Place) (read : List Step) :
    Steady 5 n 1 (indexing n r place read) (indexing m r place read)
  args (r : Region) (function : String) : Steady 6 n 1 (args n r function) (args m r function)
  moreArgs (r : Region) (function : String) (read : List Expr) :
    Steady 5 n 1 (moreArgs n r function read) (moreArgs m r function read)
  arrayItems (r : Region) (read : List Expr) : Steady 5 n 1 (arrayItems n r read) (arrayItems m r read)
  mapEntries (r : Region) (read : List (String × Expr)) : Steady 0 n 1 (mapEntries n r read) (mapEntries m r read)
  textParts (r : Region) (read : List Expr) : Steady 1 n 1 (textParts n r read) (textParts m r read)
  block (r : Region) : Steady 0 n 0 (block n r) (block m r)
  blockRest (r : Region) (read : List Stmt) : Steady 7 n 1 (blockRest n r read) (blockRest m r read)
  statement (r : Region) : SteadyIfStarts n (statement n r) (statement m r)
  operand (r : Region) : Steady 5 n 1 (operand? n r) (operand? m r)
  declaration (r : Region) (place : Place) (constant : Bool) :
    Steady 0 n 1 (declaration n r place constant) (declaration m r place constant)
  condition (r : Region) : Steady 5 n 1 (condition n r) (condition m r)
  branch (r : Region) : SteadyAtWord n (branch n r) (branch m r)
  whileLoop (r : Region) : SteadyAtWord n (whileLoop n r) (whileLoop m r)
  doLoop (r : Region) : SteadyAtWord n (doLoop n r) (doLoop m r)
  forLoop (r : Region) : SteadyAtWord n (forLoop n r) (forLoop m r)
  choice (r : Region) : SteadyAtWord n (choice n r) (choice m r)
  arms (r : Region) (read : List Arm) (otherwise : Option (Place × List Stmt)) :
    Steady 7 n 1 (arms n r read otherwise) (arms m r read otherwise)
  caseList (r : Region) (read : List Expr) : Steady 5 n 0 (caseList n r read) (caseList m r read)
  armAction (r : Region) : Steady 0 n 1 (armAction n r) (armAction m r)
  attempt (r : Region) : SteadyAtWord n (attempt n r) (attempt m r)
  function (place : Place) : Steady 0 n 1 (function n place) (function m place)

namespace Congruent
variable {n m : Nat} (ih : Congruent n m)
include ih

theorem params_succ (function : String) (read : List String) :
    Steady 0 (n + 1) 1 (Grammar.params function (n + 1) read) (Grammar.params function (m + 1) read) := by
  refine ⟨by decide, by decide, fun k s h hn => ?_⟩
  unfold Grammar.params
  refine h.start_bind fun lexeme s₁ _ hle hlt => ?_
  split
  · exact .pure hle
  · next hname =>
    have h₁ := hlt (by rw [hname]; nofun)
    split
    · exact .refuse _ _
    · refine h₁.still_bind (.bringIn _ false) fun _ s₂ h₂ => h₂.next_bind fun separator s₃ h₃ => ?_
      split
      · exact .pure (h₃.mono (Nat.le_succ k))
      · exact ((ih.params function _).behind h₃ (by omega)).weaken (Nat.le_succ k)
      · exact .refuse _ _
  · exact .refuse _ _

theorem expr_succ (r : Region) : Steady 4 (n + 1) 0 (Grammar.expr (n + 1) r) (Grammar.expr (m + 1) r) := by
  refine ⟨by decide, by decide, fun k s h hn => ?_⟩
  unfold Grammar.expr
  refine ((ih.unary r).alike k s h (by omega)).bind fun left s₁ h₁ => ?_
  exact (ih.operators r 1 left.place left).behind h₁ (by omega)

theorem operators_succ (r : Region) (parent : Nat) (last : Place) (left : Expr) :
    Steady 0 (n + 1) 1 (Grammar.operators (n + 1) r parent last left)
      (Grammar.operators (m + 1) r parent last left) := by
  refine ⟨by decide, by decide, fun k s h hn => ?_⟩
  have hk : 16 * k ≤ n := by omega
  unfold Grammar.operators
  refine h.strength_bind fun here s₁ h₁ hstarts => ?_
  split
  · exact .pure h₁
  next hbinds =>
  -- an operator that binds is a word, so all that follows lies behind one
  refine h₁.take_bind (hstarts (by omega)) fun operator s₂ h₂ => ((ih.unary r).behind h₂ hk).bind fun right s₃ h₃ => ?_
  refine h₃.strength_bind fun after s₄ h₄ _ => ?_
  extract_lets passed rest rest'
  have joined (right : Expr) (s₅ : Progress) (h₅ : Short k s₅.lexemes) :
      Alike s₅ (fun _ => Short (k + 1)) (rest right) (rest' right) := by
    refine .deeper_bind fun r => h₅.still_bind (.join operator left right) fun joined s₆ h₆ => ?_
    exact ((ih.operators r parent operator.place joined).behind h₆ hk).weaken (Nat.le_succ k)
  split
  · exact ((ih.operators r passed right.place right).behind h₄ hk).bind joined
  · exact joined right s₄ h₄

theorem unary_succ (r : Region) : Steady 3 (n + 1) 0 (Grammar.unary (n + 1) r) (Grammar.unary (m + 1) r) := by
  refine ⟨by decide, by decide, fun k s h hn => ?_⟩
  unfold Grammar.unary
  refine h.peek_bind fun lexeme hhead => ?_
  -- the operand of an operator lies behind the operator
  have operand {f : Expr → Parse Expr} (hne : lexeme.token ≠ .eof)
      (hf : ∀ e s', Short k s'.lexemes → Alike s' (fun _ => Short k) (f e) (f e)) :
      Alike s (fun _ => Short k) (next >>= fun _ => deeper r lexeme.place >>= fun r => Grammar.unary n r >>= f)
        (next >>= fun _ => deeper r lexeme.place >>= fun r => Grammar.unary m r >>= f) :=
    h.take_bind ⟨lexeme, hhead, hne⟩ fun _ s₁ h₁ => .deeper_bind fun r =>
      ((ih.unary r).behind h₁ (by omega)).bind hf
  split
  · next hsign => exact operand (by rw [hsign]; nofun) fun e s' h => .pure h
  · next hsign =>
    refine operand (by rw [hsign]; nofun) fun e s' h => ?_
    split
    · exact .pure h
    · exact .pure h
    · exact .pure h
  · next hsign => exact operand (by rw [hsign]; nofun) fun e s' h => .pure h
  · exact .refuse _ _
  · exact (ih.primary r).alike k s h (by omega)

theorem primary_succ (r : Region) :
    Steady 2 (n + 1) 0 (Grammar.primary (n + 1) r) (Grammar.primary (m + 1) r) := by
  refine ⟨by decide, by decide, fun k s h hn => ?_⟩
  have hk : 16 * k ≤ n := by omega
  unfold Grammar.primary
  refine h.peek_bind fun lexeme hhead => ?_
  extract_lets place rest found rest' found'
  have hrest (root : Expr) (s₁ : Progress) (h₁ : Short k s₁.lexemes) :
      Alike s₁ (fun _ => Short k) (rest root) (rest' root) := by
    refine ((ih.steps r []).behind h₁ hk).bind fun path s₂ h₂ => ?_
    split
    · exact .pure h₂
    · exact .pure h₂
  -- the root goes on behind the word that tells what it is
  have inside {rank slack : Nat} {α : Type} {p q : Region → Parse α} (hread : ∀ r, Steady rank n slack (p r) (q r))
      (root : α → Expr) (s₁ : Progress) (h₁ : Short k s₁.lexemes) :
      Alike s₁ (fun _ => Short k) (deeper r place >>= fun r => p r >>= fun a => rest (root a))
        (deeper r place >>= fun r => q r >>= fun a => rest' (root a)) :=
    .deeper_bind fun r => ((hread r).behind h₁ hk).bind fun a s₂ h₂ => hrest (root a) s₂ h₂
  have word {f g : Lexeme → Parse Expr} (hne : lexeme.token ≠ .eof)
      (hf : ∀ first s₁, Short k s₁.lexemes → Alike s₁ (fun _ => Short k) (f first) (g first)) :
      Alike s (fun _ => Short k) (next >>= f) (next >>= g) :=
    h.take_bind ⟨lexeme, hhead, hne⟩ hf
  split
  case h_1 hsign | h_2 hsign | h_3 hsign | h_4 hsign | h_5 hsign | h_6 hsign =>
    exact word (by rw [hsign]; nofun) fun _ s₁ h₁ => hrest _ s₁ h₁
  case h_7 hsign => exact word (by rw [hsign]; nofun) fun _ s₁ h₁ => inside (ih.textParts · _) _ s₁ h₁
  case h_8 hsign =>
    refine word (by rw [hsign]; nofun) fun _ s₁ h₁ => h₁.takeSign_bind fun empty s₂ h₂ => ?_
    split
    · exact hrest _ s₂ h₂
    · refine .deeper_bind fun r => ((ih.expr r).behind h₂ hk).bind fun e s₃ h₃ => h₃.next_bind fun closing s₄ h₄ => ?_
      split
      · exact hrest e s₄ h₄
      · exact .stop_bind (.refuse _ _)
  case h_9 hsign => exact word (by rw [hsign]; nofun) fun _ s₁ h₁ => inside (ih.arrayItems · _) _ s₁ h₁
  case h_10 hsign => exact word (by rw [hsign]; nofun) fun _ s₁ h₁ => inside (ih.mapEntries · _) _ s₁ h₁
  case h_11 name hsign =>
    refine word (by rw [hsign]; nofun) fun _ s₁ h₁ => h₁.takeSign_bind fun called s₂ h₂ => ?_
    split
    · exact inside (ih.args · name) _ s₂ h₂
    · exact hrest _ s₂ h₂
  case h_12 name hsign =>
    refine word (by rw [hsign]; nofun) fun _ s₁ h₁ => h₁.peek_bind fun opening _ => ?_
    split
    · exact h₁.next_bind fun _ s₂ h₂ => inside (ih.args · name) _ s₂ h₂
    · split
      · split
        · exact hrest _ s₁ h₁
        · exact .stop_bind (.refuse _ _)
      · exact .stop_bind (.refuse _ _)
  case h_13 => exact .stop_bind (.refuse _ _)
  case h_14 =>
    have hfound (statement : Option Stmt) (s₁ : Progress)
        (h₁ : Short (k + if statement.isSome then 0 else 1) s₁.lexemes) :
        Alike s₁ (fun _ => Short k) (found statement) (found' statement) := by
      cases statement with
      | none => exact .stop_bind (.refuse _ _)
      | some statement => exact hrest _ s₁ h₁
    split
    · exact (ih.compound _ k s h (by omega)).bind hfound
    · exact hfound none s h

theorem compound_succ (r : Region) :
    SteadyIfSome (n + 1) (Grammar.compound? (n + 1) r) (Grammar.compound? (m + 1) r) := by
  intro k s h hn
  unfold Grammar.compound?
  refine h.peek_bind fun lexeme hhead => ?_
  extract_lets inner
  -- the word stays for the reader that is called at it
  have atWord {p q : Region → Parse Stmt} (hne : lexeme.token ≠ .eof) (hread : ∀ r, SteadyAtWord n (p r) (q r)) :
      Alike s (fun found => Short (k + if found.isSome then 0 else 1))
        (inner >>= fun r => p r >>= fun a => pure (some a)) (inner >>= fun r => q r >>= fun a => pure (some a)) :=
    .deeper_bind fun r => (hread r k s h ⟨lexeme, hhead, hne⟩ (by omega)).bind fun _ _ h => .pure h
  split
  case h_1 => exact .deeper_bind fun r => ((ih.block r).alike k s h (by omega)).bind fun _ _ h => .pure h
  case h_2 hsign => exact atWord (by rw [hsign]; nofun) ih.branch
  case h_3 hsign => exact atWord (by rw [hsign]; nofun) ih.whileLoop
  case h_4 hsign => exact atWord (by rw [hsign]; nofun) ih.whileLoop
  case h_5 hsign => exact atWord (by rw [hsign]; nofun) ih.doLoop
  case h_6 hsign => exact atWord (by rw [hsign]; nofun) ih.forLoop
  case h_7 hsign => exact atWord (by rw [hsign]; nofun) ih.choice
  case h_8 => exact .pure h

theorem steps_succ (r : Region) (read : List Step) :
    Steady 0 (n + 1) 1 (Grammar.steps (n + 1) r read) (Grammar.steps (m + 1) r read) := by
  refine ⟨by decide, by decide, fun k s h hn => ?_⟩
  unfold Grammar.steps
  refine h.peek_bind fun lexeme hhead => ?_
  extract_lets inner
  have inside {rank slack : Nat} {p q : Region → Parse (List Step)} (hne : lexeme.token ≠ .eof)
      (hread : ∀ r, Steady rank n slack (p r) (q r)) :
      Alike s (fun _ => Short (k + 1)) (next >>= fun _ => inner >>= p) (next >>= fun _ => inner >>= q) :=
    h.take_bind ⟨lexeme, hhead, hne⟩ fun _ s₁ h₁ => .deeper_bind fun r =>
      ((hread r).behind h₁ (by omega)).weaken (Nat.le_succ k)
  split
  · next hsign => exact inside (by rw [hsign]; nofun) (ih.property · _)
  · next hsign => exact inside (by rw [hsign]; nofun) (ih.property · _)
  · next hsign => exact inside (by rw [hsign]; nofun) (ih.indexing · _ _)
  · next hsign => exact inside (by rw [hsign]; nofun) (ih.indexing · _ _)
  · exact .pure h

theorem property_succ (r : Region) (read : List Step) :
    Steady 0 (n + 1) 1 (Grammar.property (n + 1) r read) (Grammar.property (m + 1) r read) := by
  refine ⟨by decide, by decide, fun k s h hn => ?_⟩
  have hk : 16 * k ≤ n := by omega
  unfold Grammar.property
  refine h.peek_bind fun step hhead => ?_
  have hsteps (read : List Step) (s₁ : Progress) (h₁ : Short k s₁.lexemes) :
      Alike s₁ (fun _ => Short (k + 1)) (Grammar.steps n r read) (Grammar.steps m r read) :=
    ((ih.steps r read).behind h₁ hk).weaken (Nat.le_succ k)
  have method (name : String) (s₁ : Progress) (h₁ : Short k s₁.lexemes) :
      Alike s₁ (fun _ => Short (k + 1))
        (deeper r step.place >>= fun inner => Grammar.args n inner name >>= fun arguments =>
          Grammar.steps n r (read ++ [.method step.place name arguments]))
        (deeper r step.place >>= fun inner => Grammar.args m inner name >>= fun arguments =>
          Grammar.steps m r (read ++ [.method step.place name arguments])) :=
    .deeper_bind fun inner => ((ih.args inner name).behind h₁ hk).bind fun _ s₂ h₂ => hsteps _ s₂ h₂
  split
  · next hsign =>
    refine h.take_bind ⟨step, hhead, by rw [hsign]; nofun⟩ fun _ s₁ h₁ => h₁.takeSign_bind fun called s₂ h₂ => ?_
    split
    · exact method _ s₂ h₂
    · exact hsteps _ s₂ h₂
  · next hsign =>
    split
    · refine h.take_bind ⟨step, hhead, by rw [hsign]; nofun⟩ fun _ s₁ h₁ => h₁.takeSign_bind fun called s₂ h₂ => ?_
      split
      · exact method _ s₂ h₂
      · exact .refuse _ _
    · exact .refuse _ _
  · exact .throw _

theorem indexing_succ (r : Region) (place : Place) (read : List Step) :
    Steady 5 (n + 1) 1 (Grammar.indexing (n + 1) r place read) (Grammar.indexing (m + 1) r place read) := by
  refine ⟨by decide, by decide, fun k s h hn => ?_⟩
  unfold Grammar.indexing
  refine ((ih.expr r).alike k s h (by omega)).bind fun index s₁ h₁ => h₁.next_bind fun closing s₂ h₂ => ?_
  split
  · exact ((ih.steps r _).behind h₂ (by omega)).weaken (Nat.le_succ k)
  · exact .refuse _ _

theorem args_succ (r : Region) (function : String) :
    Steady 6 (n + 1) 1 (Grammar.args (n + 1) r function) (Grammar.args (m + 1) r function) := by
  refine ⟨by decide, by decide, fun k s h hn => ?_⟩
  unfold Grammar.args
  refine h.peek_bind fun lexeme _ => ?_
  split
  · exact .refuse _ _
  · exact h.next_bind fun _ _ h => .pure h
  · exact (ih.moreArgs r function []).alike k s h (by omega)

theorem moreArgs_succ (r : Region) (function : String) (read : List Expr) :
    Steady 5 (n + 1) 1 (Grammar.moreArgs (n + 1) r function read) (Grammar.moreArgs (m + 1) r function read) := by
  refine ⟨by decide, by decide, fun k s h hn => ?_⟩
  unfold Grammar.moreArgs
  refine h.peek_bind fun first _ => ?_
  extract_lets rest rest'
  have hrest (read : List Expr) (s₁ : Progress) (h₁ : Short (k + 1) s₁.lexemes) :
      Alike s₁ (fun _ => Short (k + 1)) (rest read) (rest' read) := by
    refine h₁.start_bind fun lexeme s₂ _ hle hlt => ?_
    split
    · exact .pure hle
    · next hsign =>
      have h₂ := hlt (by rw [hsign]; nofun)
      exact ((ih.moreArgs r function read).behind h₂ (by omega)).weaken (Nat.le_succ k)
    · exact .refuse _ _
    · exact .refuse _ _
  split
  · exact hrest read s h
  · exact ((ih.expr r).alike k s h (by omega)).bind fun e s₁ h₁ => hrest _ s₁ (h₁.mono (Nat.le_succ k))

theorem arrayItems_succ (r : Region) (read : List Expr) :
    Steady 5 (n + 1) 1 (Grammar.arrayItems (n + 1) r read) (Grammar.arrayItems (m + 1) r read) := by
  refine ⟨by decide, by decide, fun k s h hn => ?_⟩
  have hitems (read : List Expr) (s₁ : Progress) (h₁ : Short k s₁.lexemes) :
      Alike s₁ (fun _ => Short (k + 1)) (Grammar.arrayItems n r read) (Grammar.arrayItems m r read) :=
    ((ih.arrayItems r read).behind h₁ (by omega)).weaken (Nat.le_succ k)
  unfold Grammar.arrayItems
  refine h.peek_bind fun lexeme _ => ?_
  split
  · exact h.next_bind fun _ _ h => .pure h
  · exact .refuse _ _
  · refine ((ih.expr r).alike k s h (by omega)).bind fun item s₁ h₁ => h₁.peek_bind fun separator _ => ?_
    split
    · exact h₁.next_bind fun _ s₂ h₂ => hitems _ s₂ h₂
    · exact hitems _ s₁ h₁
    · exact .refuse _ _
    · exact .refuse _ _

theorem mapEntries_succ (r : Region) (read : List (String × Expr)) :
    Steady 0 (n + 1) 1 (Grammar.mapEntries (n + 1) r read) (Grammar.mapEntries (m + 1) r read) := by
  refine ⟨by decide, by decide, fun k s h hn => ?_⟩
  have hk : 16 * k ≤ n := by omega
  have hentries (read : List (String × Expr)) (s₁ : Progress) (h₁ : Short k s₁.lexemes) :
      Alike s₁ (fun _ => Short (k + 1)) (Grammar.mapEntries n r read) (Grammar.mapEntries m r read) :=
    ((ih.mapEntries r read).behind h₁ hk).weaken (Nat.le_succ k)
  unfold Grammar.mapEntries
  refine h.start_bind fun lexeme s₁ _ hle hlt => ?_
  split
  case h_3 hsign | h_4 hsign =>
    have h₁ := hlt (by rw [hsign]; nofun)
    split
    · exact .refuse _ _
    · refine h₁.next_bind fun colon s₂ h₂ => ?_
      split
      · refine ((ih.expr r).behind h₂ hk).bind fun value s₃ h₃ => h₃.peek_bind fun separator _ => ?_
        split
        · exact h₃.next_bind fun _ s₄ h₄ => hentries _ s₄ h₄
        · exact hentries _ s₃ h₃
        · exact .refuse _ _
        · exact .refuse _ _
      · exact .refuse _ _
  case h_6 => split <;> exact .refuse _ _
  · exact .pure hle
  · exact .refuse _ _
  · exact .refuse _ _
  · exact .refuse _ _

theorem textParts_succ (r : Region) (read : List Expr) :
    Steady 1 (n + 1) 1 (Grammar.textParts (n + 1) r read) (Grammar.textParts (m + 1) r read) := by
  refine ⟨by decide, by decide, fun k s h hn => ?_⟩
  unfold Grammar.textParts
  refine h.peek_bind fun opening _ => ((ih.block _).alike k s h (by omega)).bind fun body s₁ h₁ => ?_
  refine h₁.next_bind fun lexeme s₂ h₂ => ?_
  split
  · exact .pure (h₂.mono (Nat.le_succ k))
  · exact ((ih.textParts r _).behind h₂ (by omega)).weaken (Nat.le_succ k)
  · exact .refuse _ _

theorem block_succ (r : Region) : Steady 0 (n + 1) 0 (Grammar.block (n + 1) r) (Grammar.block (m + 1) r) := by
  refine ⟨by decide, by decide, fun k s h hn => ?_⟩
  unfold Grammar.block
  refine h.start_bind fun opening s₁ _ _ hlt => ?_
  split
  · next hsign =>
    have h₁ := hlt (ne_eof_of_isSign hsign)
    refine .deeper_bind fun r => ((ih.blockRest r []).behind h₁ (by omega)).withScope.bind fun body s₂ h₂ => ?_
    exact .pure h₂
  · exact .refuse _ _

theorem blockRest_succ (r : Region) (read : List Stmt) :
    Steady 7 (n + 1) 1 (Grammar.blockRest (n + 1) r read) (Grammar.blockRest (m + 1) r read) := by
  refine ⟨by decide, by decide, fun k s h hn => ?_⟩
  have hmore (read : List Stmt) (s₁ : Progress) (h₁ : Short k s₁.lexemes) :
      Alike s₁ (fun _ => Short (k + 1)) (Grammar.blockRest n r read) (Grammar.blockRest m r read) :=
    ((ih.blockRest r read).behind h₁ (by omega)).weaken (Nat.le_succ k)
  unfold Grammar.blockRest
  refine h.peek_bind fun lexeme hhead => ?_
  split
  · exact h.next_bind fun _ _ h => .pure h
  · exact .refuse _ _
  · next hopen hne =>
    -- the word is not the end of the body, so the statement takes it
    refine (ih.statement r k s h (by omega)).bind fun statement s₁ ⟨_, hlt⟩ => ?_
    have h₁ := hlt ⟨lexeme, hhead, hne⟩
    split
    · exact hmore read s₁ h₁
    · refine h₁.peek_bind fun separator _ => ?_
      split
      · exact h₁.next_bind fun _ _ h₂ => .pure (h₂.mono (Nat.le_succ k))
      · exact h₁.next_bind fun _ s₂ h₂ => hmore _ s₂ h₂
      · split
        · exact hmore _ s₁ h₁
        · exact .refuse _ _

theorem statement_succ (r : Region) :
    SteadyIfStarts (n + 1) (Grammar.statement (n + 1) r) (Grammar.statement (m + 1) r) := by
  intro k s h hn
  have hk : 16 * k ≤ n := by omega
  unfold Grammar.statement
  refine h.peek_bind fun lexeme hhead => ?_
  extract_lets place
  have took {words : List Lexeme} (h : Short k words) : Short (k + 1) words ∧ (Starts s → Short k words) :=
    ⟨h.mono (Nat.le_succ k), fun _ => h⟩
  have word {f g : Lexeme → Parse (Option Stmt)} (hne : lexeme.token ≠ .eof)
      (hf : ∀ first s₁, Short k s₁.lexemes →
        Alike s₁ (fun _ words => Short (k + 1) words ∧ (Starts s → Short k words)) (f first) (g first)) :
      Alike s (fun _ words => Short (k + 1) words ∧ (Starts s → Short k words)) (next >>= f) (next >>= g) :=
    h.take_bind ⟨lexeme, hhead, hne⟩ hf
  -- what belongs to the statement lies behind the word that tells what it is
  have inside {rank slack : Nat} {α : Type} {p q : Region → Parse α} (hne : lexeme.token ≠ .eof)
      (hread : ∀ r, Steady rank n slack (p r) (q r)) (found : α → Stmt) :
      Alike s (fun _ words => Short (k + 1) words ∧ (Starts s → Short k words))
        (next >>= fun _ => deeper r place >>= fun r => p r >>= fun a => pure (some (found a)))
        (next >>= fun _ => deeper r place >>= fun r => q r >>= fun a => pure (some (found a))) :=
    word hne fun _ s₁ h₁ => .deeper_bind fun r => ((hread r).behind h₁ hk).bind fun _ _ h₂ => .pure (took h₂)
  split
  case h_1 hend =>
    refine .pure ⟨h, fun ⟨first, hfirst, hne⟩ => absurd hend ?_⟩
    rw [hfirst] at hhead
    cases hhead
    exact hne
  case h_2 hsign => exact word (by rw [hsign]; nofun) fun _ _ h₁ => .pure (took h₁)
  case h_3 hsign =>
    split
    · refine word (by rw [hsign]; nofun) fun _ s₁ h₁ => ?_
      exact ((ih.function place).behind h₁ hk).bind fun _ _ h₂ => .pure (took h₂)
    · exact .refuse _ _
  case h_4 hsign =>
    split
    · refine word (by rw [hsign]; nofun) fun _ s₁ h₁ => h₁.next_bind fun keyword s₂ h₂ => ?_
      split
      · exact ((ih.function _).behind h₂ hk).bind fun _ _ h₃ => .pure (took h₃)
      · exact .refuse _ _
    · exact .refuse _ _
  case h_5 hsign =>
    split
    · exact word (by rw [hsign]; nofun) fun _ _ h₁ => .pure (took h₁)
    · exact .refuse _ _
  case h_6 hsign =>
    split
    · exact inside (by rw [hsign]; nofun) ih.operand _
    · exact .refuse _ _
  case h_7 hsign | h_8 hsign => exact inside (by rw [hsign]; nofun) ih.operand _
  case h_9 hsign => exact inside (by rw [hsign]; nofun) (ih.declaration · place false) id
  case h_10 hsign => exact inside (by rw [hsign]; nofun) (ih.declaration · place true) id
  case h_11 hsign =>
    have hstarts : Starts s := ⟨lexeme, hhead, by rw [hsign]; nofun⟩
    exact .deeper_bind fun r => (ih.attempt r k s h hstarts (by omega)).bind fun _ _ h₁ => .pure (took h₁)
  case h_12 =>
    refine (ih.compound r k s h (by omega)).bind fun found s₁ h₁ => ?_
    cases found with
    | some found => exact .pure (took h₁)
    | none =>
      refine .deeper_bind fun r => ((ih.expr r).alike k s₁ h₁ (by omega)).bind fun target s₂ h₂ => ?_
      refine h₂.peek_bind fun operator _ => ?_
      split
      · exact .pure (took h₂)
      · refine h₂.next_bind fun _ s₃ h₃ => ((ih.expr r).behind h₃ hk).bind fun value s₄ h₄ => ?_
        exact h₄.still_bind (.checkTarget target) fun _ _ h₅ => .pure (took h₅)

theorem operand_succ (r : Region) :
    Steady 5 (n + 1) 1 (Grammar.operand? (n + 1) r) (Grammar.operand? (m + 1) r) := by
  refine ⟨by decide, by decide, fun k s h hn => ?_⟩
  unfold Grammar.operand?
  refine h.peek_bind fun lexeme _ => ?_
  have value : Alike s (fun _ => Short (k + 1)) (Grammar.expr n r >>= fun e => pure (some e))
      (Grammar.expr m r >>= fun e => pure (some e)) :=
    ((ih.expr r).alike k s h (by omega)).bind fun _ _ h₁ => .pure (h₁.mono (Nat.le_succ k))
  split
  · exact .pure h
  · exact .pure h
  · split
    · exact value
    · exact .pure h
  · exact value

theorem declaration_succ (r : Region) (place : Place) (constant : Bool) :
    Steady 0 (n + 1) 1 (Grammar.declaration (n + 1) r place constant)
      (Grammar.declaration (m + 1) r place constant) := by
  refine ⟨by decide, by decide, fun k s h hn => ?_⟩
  unfold Grammar.declaration
  refine h.variableName_bind fun found s₁ h₁ => h₁.takeSign_bind fun valued s₂ h₂ => ?_
  extract_lets rest
  have hrest (value : Option Expr) (s₃ : Progress) (h₃ : Short k s₃.lexemes) :
      Alike s₃ (fun _ => Short (k + 1)) (rest value) (rest value) :=
    h₃.still_bind (.bringIn _ constant) fun _ _ h₄ => .pure (h₄.mono (Nat.le_succ k))
  split
  · exact ((ih.expr r).behind h₂ (by omega)).bind fun e s₃ h₃ => hrest _ s₃ h₃
  · exact hrest none s₂ h₂

theorem condition_succ (r : Region) :
    Steady 5 (n + 1) 1 (Grammar.condition (n + 1) r) (Grammar.condition (m + 1) r) := by
  refine ⟨by decide, by decide, fun k s h hn => ?_⟩
  unfold Grammar.condition
  refine h.still_bind .ensureNoBlock fun _ s₁ h₁ => ((ih.expr _).alike k s₁ h₁ (by omega)).bind fun e s₂ h₂ => ?_
  refine h₂.still_bind (.ensureBool e) fun e s₃ h₃ => h₃.still_bind .ensureNoAssignment fun _ s₄ h₄ => ?_
  exact .pure (h₄.mono (Nat.le_succ k))

theorem branch_succ (r : Region) :
    SteadyAtWord (n + 1) (Grammar.branch (n + 1) r) (Grammar.branch (m + 1) r) := by
  intro k s h hstarts hn
  have hk : 16 * k ≤ n := by omega
  unfold Grammar.branch
  refine h.take_bind hstarts fun keyword s₁ h₁ => ((ih.condition r).behind h₁ hk).bind fun question s₂ h₂ => ?_
  refine ((ih.block r).behind h₂ hk).bind fun yes s₃ h₃ => h₃.takeSign_bind fun other s₄ h₄ => ?_
  split
  · refine h₄.peek_bind fun word hword => ?_
    split
    · next hsign =>
      have hstarts : Starts s₄ := ⟨word, hword, ne_eof_of_isSign hsign⟩
      exact .deeper_bind fun r => ((ih.branch r).behind h₄ hstarts hk).bind fun _ _ h₅ => .pure h₅
    · exact ((ih.block r).behind h₄ hk).bind fun _ _ h₅ => .pure h₅
  · exact .pure h₄

theorem whileLoop_succ (r : Region) :
    SteadyAtWord (n + 1) (Grammar.whileLoop (n + 1) r) (Grammar.whileLoop (m + 1) r) := by
  intro k s h hstarts hn
  have hk : 16 * k ≤ n := by omega
  unfold Grammar.whileLoop
  refine h.take_bind hstarts fun keyword s₁ h₁ => ?_
  extract_lets rest rest'
  have hrest (question : Option Expr) (s₂ : Progress) (h₂ : Short k s₂.lexemes) :
      Alike s₂ (fun _ => Short k) (rest question) (rest' question) :=
    ((ih.block _).behind h₂ hk).bind fun _ _ h₃ => .pure h₃
  split
  · exact hrest none s₁ h₁
  · exact ((ih.condition r).behind h₁ hk).bind fun question s₂ h₂ => hrest _ s₂ h₂

theorem doLoop_succ (r : Region) :
    SteadyAtWord (n + 1) (Grammar.doLoop (n + 1) r) (Grammar.doLoop (m + 1) r) := by
  intro k s h hstarts hn
  have hk : 16 * k ≤ n := by omega
  unfold Grammar.doLoop
  refine h.take_bind hstarts fun keyword s₁ h₁ => ((ih.block _).behind h₁ hk).bind fun body s₂ h₂ => ?_
  refine h₂.next_bind fun word s₃ h₃ => ?_
  split
  · exact ((ih.condition r).behind h₃ hk).bind fun _ _ h₄ => .pure h₄
  · exact ((ih.condition r).behind h₃ hk).bind fun _ _ h₄ => .pure h₄
  · exact .refuse _ _

theorem forLoop_succ (r : Region) :
    SteadyAtWord (n + 1) (Grammar.forLoop (n + 1) r) (Grammar.forLoop (m + 1) r) := by
  intro k s h hstarts hn
  have hk : 16 * k ≤ n := by omega
  unfold Grammar.forLoop
  refine h.take_bind hstarts fun keyword s₁ h₁ => h₁.loopVariables_bind fun names s₂ h₂ => ?_
  refine h₂.next_bind fun word s₃ h₃ => ?_
  split
  · refine h₃.still_bind .ensureNoBlock fun _ s₄ h₄ => ((ih.expr _).behind h₄ hk).bind fun e s₅ h₅ => ?_
    refine h₅.still_bind (.ensureIterable e) fun items s₆ h₆ => .withScope ?_
    have counted : Still (names.2.forM (bringIn · false)) := by
      cases names.2 with
      | none => exact .pure _
      | some counter => exact .bringIn counter false
    refine h₆.still_bind counted fun _ s₇ h₇ => h₇.still_bind (.bringIn _ false) fun _ s₈ h₈ => ?_
    exact ((ih.block _).behind h₈ hk).bind fun _ _ h₉ => .pure h₉
  · exact .refuse _ _

theorem choice_succ (r : Region) :
    SteadyAtWord (n + 1) (Grammar.choice (n + 1) r) (Grammar.choice (m + 1) r) := by
  intro k s h hstarts hn
  have hk : 16 * k ≤ n := by omega
  unfold Grammar.choice
  refine h.take_bind hstarts fun keyword s₁ h₁ => ((ih.expr _).behind h₁ hk).bind fun subject s₂ h₂ => ?_
  refine h₂.next_bind fun opening s₃ h₃ => ?_
  split
  · exact ((ih.arms _ [] none).behind h₃ hk).bind fun _ _ h₄ => .pure h₄
  · exact .refuse _ _

theorem arms_succ (r : Region) (read : List Arm) (otherwise : Option (Place × List Stmt)) :
    Steady 7 (n + 1) 1 (Grammar.arms (n + 1) r read otherwise) (Grammar.arms (m + 1) r read otherwise) := by
  refine ⟨by decide, by decide, fun k s h hn => ?_⟩
  have hk : 16 * k ≤ n := by omega
  have hmore (read : List Arm) (otherwise : Option (Place × List Stmt)) (s₁ : Progress) (h₁ : Short k s₁.lexemes) :
      Alike s₁ (fun _ => Short (k + 1)) (Grammar.arms n r read otherwise) (Grammar.arms m r read otherwise) :=
    ((ih.arms r read otherwise).behind h₁ hk).weaken (Nat.le_succ k)
  unfold Grammar.arms
  refine h.peek_bind fun lexeme hhead => ?_
  split
  · exact h.next_bind fun _ _ h => .pure h
  · exact .refuse _ _
  · next hsign =>
    refine h.take_bind ⟨lexeme, hhead, by rw [hsign]; nofun⟩ fun _ s₁ h₁ => h₁.peek_bind fun word _ => ?_
    split
    · exact .refuse _ _
    · refine ((ih.armAction r).behind h₁ hk).bind fun action s₂ h₂ => h₂.armEnd_bind fun _ s₃ h₃ => ?_
      exact hmore read _ s₃ h₃
  · exact .refuse _ _
  · exact .throw _
  · refine ((ih.caseList r []).alike k s h (by omega)).bind fun cases s₁ h₁ => ?_
    refine h₁.takeSign_bind fun conditional s₂ h₂ => ?_
    extract_lets rest rest'
    have hrest (question : Option Expr) (s₃ : Progress) (h₃ : Short k s₃.lexemes) :
        Alike s₃ (fun _ => Short (k + 1)) (rest question) (rest' question) := by
      refine ((ih.armAction r).behind h₃ hk).bind fun action s₄ h₄ => ?_
      refine h₄.still_bind (.checkCases _ cases) fun _ s₅ h₅ => h₅.armEnd_bind fun _ s₆ h₆ => ?_
      exact hmore _ none s₆ h₆
    split
    · exact ((ih.condition r).behind h₂ hk).bind fun question s₃ h₃ => hrest _ s₃ h₃
    · exact hrest none s₂ h₂

theorem caseList_succ (r : Region) (read : List Expr) :
    Steady 5 (n + 1) 0 (Grammar.caseList (n + 1) r read) (Grammar.caseList (m + 1) r read) := by
  refine ⟨by decide, by decide, fun k s h hn => ?_⟩
  unfold Grammar.caseList
  refine (((ih.expr _).alike k s h (by omega)).retold _).bind fun e s₁ h₁ => h₁.takeSign_bind fun more s₂ h₂ => ?_
  split
  · exact (ih.caseList r _).behind h₂ (by omega)
  · exact .pure h₂

theorem armAction_succ (r : Region) :
    Steady 0 (n + 1) 1 (Grammar.armAction (n + 1) r) (Grammar.armAction (m + 1) r) := by
  refine ⟨by decide, by decide, fun k s h hn => ?_⟩
  unfold Grammar.armAction
  refine h.start_bind fun arrow s₁ _ _ hlt => ?_
  split
  · next hsign =>
    have h₁ := hlt (ne_eof_of_isSign hsign)
    refine ((ih.statement r).behind h₁ (by omega)).withScope.bind fun _ _ h₂ => ?_
    exact .pure (h₂.mono (Nat.le_succ k))
  · exact .refuse _ _

theorem attempt_succ (r : Region) :
    SteadyAtWord (n + 1) (Grammar.attempt (n + 1) r) (Grammar.attempt (m + 1) r) := by
  intro k s h hstarts hn
  have hk : 16 * k ≤ n := by omega
  unfold Grammar.attempt
  refine h.take_bind hstarts fun keyword s₁ h₁ => ((ih.block r).behind h₁ hk).bind fun body s₂ h₂ => ?_
  refine h₂.next_bind fun word s₃ h₃ => ?_
  split
  · refine h₃.takeSign_bind fun named s₄ h₄ => ?_
    split
    · refine h₄.name_bind fun name s₅ h₅ => h₅.next_bind fun closing s₆ h₆ => ?_
      split
      · refine .withScope (h₆.still_bind (.bringIn _ false) fun _ s₇ h₇ => ?_)
        exact ((ih.block r).behind h₇ hk).bind fun _ _ h₈ => .pure h₈
      · exact .refuse _ _
    · exact ((ih.block r).behind h₄ hk).bind fun _ _ h₅ => .pure h₅
  · exact .refuse _ _

theorem function_succ (place : Place) :
    Steady 0 (n + 1) 1 (Grammar.function (n + 1) place) (Grammar.function (m + 1) place) := by
  refine ⟨by decide, by decide, fun k s h hn => ?_⟩
  have hk : 16 * k ≤ n := by omega
  unfold Grammar.function
  refine h.start_bind fun lexeme s₁ _ _ hlt => ?_
  split
  · next hname =>
    have h₁ := hlt (by rw [hname]; nofun)
    refine h₁.peek_bind fun opening _ => ?_
    split
    · refine h₁.next_bind fun _ s₂ h₂ => h₂.still_bind .get fun before s₃ h₃ => ?_
      refine h₃.still_bind (.modify fun _ => rfl) fun _ s₄ h₄ => ?_
      refine ((ih.params _ []).behind h₄ hk).bind fun names s₅ h₅ => h₅.peek_bind fun brace _ => ?_
      split
      · refine ((ih.block _).behind h₅ hk).bind fun body s₆ h₆ => h₆.still_bind .get fun after s₇ h₇ => ?_
        extract_lets rest
        have hrest : Alike s₇ (fun _ => Short (k + 1)) (rest ()) (rest ()) :=
          ⟨rfl, fun _ s₈ heq => by cases heq; exact h₇.mono (Nat.le_succ k)⟩
        split
        · exact .stop_bind (.throw _)
        · exact hrest
      · exact .throw _
    · exact .throw _
  · exact .throw _
  · exact .throw _

omit ih in
theorem zero (m : Nat) : Congruent 0 m where
  params _ _ := .of_zero (by decide) (by decide)
  expr _ := .of_zero (by decide) (by decide)
  operators _ _ _ _ := .of_zero (by decide) (by decide)
  unary _ := .of_zero (by decide) (by decide)
  primary _ := .of_zero (by decide) (by decide)
  compound _ _ _ _ hn := absurd hn (Nat.not_lt_zero _)
  steps _ _ := .of_zero (by decide) (by decide)
  property _ _ := .of_zero (by decide) (by decide)
  indexing _ _ _ := .of_zero (by decide) (by decide)
  args _ _ := .of_zero (by decide) (by decide)
  moreArgs _ _ _ := .of_zero (by decide) (by decide)
  arrayItems _ _ := .of_zero (by decide) (by decide)
  mapEntries _ _ := .of_zero (by decide) (by decide)
  textParts _ _ := .of_zero (by decide) (by decide)
  block _ := .of_zero (by decide) (by decide)
  blockRest _ _ := .of_zero (by decide) (by decide)
  statement _ _ _ _ hn := absurd hn (Nat.not_lt_zero _)
  operand _ := .of_zero (by decide) (by decide)
  declaration _ _ _ := .of_zero (by decide) (by decide)
  condition _ := .of_zero (by decide) (by decide)
  branch _ _ _ _ _ hn := absurd hn (Nat.not_lt_zero _)
  whileLoop _ _ _ _ _ hn := absurd hn (Nat.not_lt_zero _)
  doLoop _ _ _ _ _ hn := absurd hn (Nat.not_lt_zero _)
  forLoop _ _ _ _ _ hn := absurd hn (Nat.not_lt_zero _)
  choice _ _ _ _ _ hn := absurd hn (Nat.not_lt_zero _)
  arms _ _ _ := .of_zero (by decide) (by decide)
  caseList _ _ := .of_zero (by decide) (by decide)
  armAction _ := .of_zero (by decide) (by decide)
  attempt _ _ _ _ _ hn := absurd hn (Nat.not_lt_zero _)
  function _ := .of_zero (by decide) (by decide)

/-- With one more on both measures the readers agree on one more word. -/
theorem succ : Congruent (n + 1) (m + 1) where
  params := ih.params_succ
  expr := ih.expr_succ
  operators := ih.operators_succ
  unary := ih.unary_succ
  primary := ih.primary_succ
  compound := ih.compound_succ
  steps := ih.steps_succ
  property := ih.property_succ
  indexing := ih.indexing_succ
  args := ih.args_succ
  moreArgs := ih.moreArgs_succ
  arrayItems := ih.arrayItems_succ
  mapEntries := ih.mapEntries_succ
  textParts := ih.textParts_succ
  block := ih.block_succ
  blockRest := ih.blockRest_succ
  statement := ih.statement_succ
  operand := ih.operand_succ
  declaration := ih.declaration_succ
  condition := ih.condition_succ
  branch := ih.branch_succ
  whileLoop := ih.whileLoop_succ
  doLoop := ih.doLoop_succ
  forLoop := ih.forLoop_succ
  choice := ih.choice_succ
  arms := ih.arms_succ
  caseList := ih.caseList_succ
  armAction := ih.armAction_succ
  attempt := ih.attempt_succ
  function := ih.function_succ

end Congruent

theorem congruent {n m : Nat} (h : n ≤ m) : Congruent n m := by
  induction n generalizing m with
  | zero => exact .zero m
  | succ n ih =>
    obtain ⟨m, rfl⟩ := Nat.exists_eq_succ_of_ne_zero (Nat.ne_zero_of_lt h)
    exact (ih (Nat.le_of_succ_le_succ h)).succ

/-- The statements at the top of a body. -/
theorem alike_topRest {n m : Nat} (h : n ≤ m) (read : List Stmt) (k : Nat) (s : Progress) (hs : Short (k + 1) s.lexemes)
    (hn : 16 * k + 7 < n) : Alike s (fun _ _ => True) (topRest n read) (topRest m read) := by
  induction n generalizing m read k s with
  | zero => exact absurd hn (Nat.not_lt_zero _)
  | succ n ih =>
    obtain ⟨m, rfl⟩ := Nat.exists_eq_succ_of_ne_zero (Nat.ne_zero_of_lt h)
    have hle := Nat.le_of_succ_le_succ h
    have hmore (read : List Stmt) (s₁ : Progress) (h₁ : Short k s₁.lexemes) :
        Alike s₁ (fun _ _ => True) (topRest n read) (topRest m read) := by
      obtain ⟨j, rfl⟩ := h₁.exists_succ
      exact ih hle read j s₁ h₁ (by omega)
    refine hs.peek_bind fun lexeme hhead => ?_
    split
    · exact .pure trivial
    · next hopen =>
      have hne : lexeme.token ≠ .eof := by
        intro heof
        rw [heof] at hopen
        exact hopen rfl
      refine ((congruent hle).statement _ k s hs (by omega)).bind fun statement s₁ ⟨_, hlt⟩ => ?_
      have h₁ := hlt ⟨lexeme, hhead, hne⟩
      split
      · exact hmore read s₁ h₁
      · refine h₁.peek_bind fun separator _ => ?_
        split
        · exact .pure trivial
        · split
          · exact hmore _ s₁ h₁
          · exact h₁.next_bind fun _ s₂ h₂ => hmore _ s₂ h₂
        · split
          · exact hmore _ s₁ h₁
          · exact .refuse _ _

theorem alike_wholeExpr {n m : Nat} (h : n ≤ m) (k : Nat) (s : Progress) (hs : Short (k + 1) s.lexemes)
    (hn : 16 * k + 4 < n) : Alike s (fun _ _ => True) (wholeExpr n) (wholeExpr m) := by
  refine (((congruent h).expr _).alike k s hs hn).bind fun e s₁ h₁ => h₁.peek_bind fun lexeme _ => ?_
  split
  · exact .pure trivial
  · exact .refuse _ _

theorem short_words (text : String) : Short ((Lexer.words text).length + 1) (Lexer.words text) :=
  ⟨Lexer.ended_wordsFrom .., Nat.lt_succ_self _⟩

theorem lt_measure (lexemes : List Lexeme) {rank : Nat} (h : rank < 16) :
    16 * lexemes.length + rank < measure lexemes := by
  unfold measure
  omega

end Grammar

/-! ## Section 2 - bodies -/

/-- From the measure that a body is read with on, what is read does not depend on it. -/
theorem Program.read_eq_of_le (body : String) {n : Nat} (h : Grammar.measure (Lexer.words body) ≤ n) :
    Grammar.topRest n [] ⟨Lexer.words body, [], []⟩ =
      Grammar.topRest (Grammar.measure (Lexer.words body)) [] ⟨Lexer.words body, [], []⟩ :=
  (Grammar.alike_topRest h [] _ ⟨Lexer.words body, [], []⟩ (Grammar.short_words body)
    (Grammar.lt_measure _ (by decide))).same.symm

/-- The same for a text that is one expression. -/
theorem Expr.read_eq_of_le (text : String) {n : Nat} (h : Grammar.measure (Lexer.words text) ≤ n) :
    Grammar.wholeExpr n ⟨Lexer.words text, [], []⟩ =
      Grammar.wholeExpr (Grammar.measure (Lexer.words text)) ⟨Lexer.words text, [], []⟩ :=
  (Grammar.alike_wholeExpr h _ ⟨Lexer.words text, [], []⟩ (Grammar.short_words text)
    (Grammar.lt_measure _ (by decide))).same.symm

end HotReload.Body
