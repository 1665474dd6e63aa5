import HotReload.Body.Grammar
import HotReload.Proofs.Body.Words

/-! # Where the faults of a body are told

    The grammar tells a fault at a word that it refuses, or at an expression that it has
    read before, whose places are those of its words.  So there is nothing to be told
    where no word stands.

    Every reader of phrases is *placed*: as long as the words to come stand at places of
    some kind, its faults are told at places of this kind, and so are the expressions that
    it hands back.  For the readers that call each other this goes by induction on the
    measure, for all of them at once. -/

namespace HotReload.Body

/-! ## Section 1 - expressions -/

/-- The places at which a fault of a step into a value may be told. -/
def Step.Told (S : Place → Prop) : Step → Prop
  | .method place _ _ => S place
  | .field _ _ | .index _ _ | .guard => True

/-- The places at which a fault of an expression may be told. -/
structure Expr.Told (S : Place → Prop) (e : Expr) : Prop where
  place : S e.place
  start : S e.start
  steps : ∀ root path, e = .chain root path → S root.place ∧ ∀ step ∈ path, step.Told S

namespace Expr.Told
variable {S : Place → Prop} {e left right : Expr} {place : Place}

/-- An expression that begins where its faults are told. -/
theorem of_place (h : S e.place) (hstart : e.start = e.place) (hchain : ∀ root path, e ≠ .chain root path) :
    e.Told S :=
  ⟨h, hstart ▸ h, fun root path heq => absurd heq (hchain root path)⟩

/-- An expression that begins where another one does. -/
theorem of_left (h : S e.place) (hleft : left.Told S) (hstart : e.start = left.start)
    (hchain : ∀ root path, e ≠ .chain root path) : e.Told S :=
  ⟨h, hstart ▸ hleft.start, fun root path heq => absurd heq (hchain root path)⟩

theorem chain {root : Expr} {path : List Step} (hroot : root.Told S) (hpath : ∀ step ∈ path, step.Told S) :
    (Expr.chain root path).Told S where
  place := hroot.place
  start := hroot.start
  steps := by
    rintro _ _ ⟨⟩
    exact ⟨hroot.place, hpath⟩

end Expr.Told

namespace Grammar

/-! ## Section 2 - readers -/

/-- All words to come stand at places of a kind. -/
def Progress.Told (S : Place → Prop) (s : Progress) : Prop := ∀ lexeme ∈ s.lexemes, S lexeme.place

/-- A reader tells its faults at places of a kind if the words to come stand at such places, and what it reads has a
    property. -/
def Placed (S : Place → Prop) {α : Type} (P : α → Prop) (p : Parse α) : Prop :=
  ∀ s : Progress, s.Told S →
    match p s with
    | .ok (a, s') => P a ∧ s'.Told S
    | .error fault => S fault.place

/-- Nothing is said about what the reader reads. -/
abbrev Safe (S : Place → Prop) {α : Type} (p : Parse α) : Prop := Placed S (fun _ => True) p

section readers
variable {S : Place → Prop} {α β : Type} {P : α → Prop} {Q : β → Prop}

namespace Placed

theorem pure {a : α} (h : P a) : Placed S P (Pure.pure a) := fun _ hs => ⟨h, hs⟩

theorem throw {fault : ParseFault} (h : S fault.place) : Placed S P (throw fault) := fun _ _ => h

theorem bind {p : Parse α} {f : α → Parse β} (h : Placed S P p) (hf : ∀ a, P a → Placed S Q (f a)) :
    Placed S Q (p >>= f) := by
  intro s hs
  have hfirst := h s hs
  show match Except.bind (p s) fun result => f result.1 result.2 with
    | .ok (b, s') => Q b ∧ s'.Told S
    | .error fault => S fault.place
  cases hp : p s with
  | error fault =>
    rw [hp] at hfirst
    exact hfirst
  | ok result =>
    rw [hp] at hfirst
    exact hf result.1 hfirst.1 result.2 hfirst.2

/-- A look at the progress. -/
theorem get : Safe S (get : Parse Progress) := fun _ hs => ⟨trivial, hs⟩

/-- A change of the progress that brings no words. -/
theorem modify {f : Progress → Progress} (hf : ∀ s, (f s).lexemes ⊆ s.lexemes) : Safe S (modify f : Parse PUnit) :=
  fun s hs => ⟨trivial, fun lexeme hmem => hs lexeme (hf s hmem)⟩

/-- Another cause at the same place. -/
theorem retold {p : Parse α} (h : Placed S P p) (cause : ParseCause) : Placed S P (retold cause p) := by
  intro s hs
  have hread := h s hs
  unfold Grammar.retold
  cases hp : p s with
  | error fault =>
    rw [hp] at hread
    exact hread
  | ok result =>
    rw [hp] at hread
    exact hread

end Placed

/-! ## Section 3 - words -/

variable (hstart : S .start)
include hstart

theorem placed_peek : Placed S (fun lexeme => S lexeme.place) peek := by
  intro s hs
  obtain ⟨lexemes, scope, functions⟩ := s
  cases lexemes with
  | nil => exact ⟨hstart, hs⟩
  | cons lexeme more => exact ⟨hs lexeme List.mem_cons_self, hs⟩

theorem placed_next : Placed S (fun lexeme => S lexeme.place) next := by
  refine (placed_peek hstart).bind fun lexeme hlexeme => ?_
  refine Placed.bind (Placed.modify fun s => ?_) fun _ _ => .pure hlexeme
  split
  · next hmore => rw [hmore]; exact List.subset_cons_self _ _
  · exact List.Subset.refl _

omit hstart in
theorem placed_refuse {lexeme : Lexeme} (h : S lexeme.place) (cause : ParseCause) :
    Placed S P (refuse lexeme cause) := by
  unfold refuse
  split <;> exact .throw h

theorem safe_takeSign (sign : String) : Safe S (takeSign sign) := by
  refine (placed_peek hstart).bind fun lexeme _ => ?_
  split
  · exact (placed_next hstart).bind fun _ _ => .pure trivial
  · exact .pure trivial

theorem placed_exhausted : Placed S P exhausted := (placed_peek hstart).bind fun _ h => .throw h

omit hstart in
theorem safe_bringIn (name : String) (constant : Bool) : Safe S (bringIn name constant) :=
  .modify fun _ => List.Subset.refl _

omit hstart in
theorem placed_withScope {p : Parse α} (h : Placed S P p) : Placed S P (withScope p) := by
  refine Placed.get.bind fun s _ => h.bind fun a ha => ?_
  exact Placed.bind (.modify fun _ => List.Subset.refl _) fun _ _ => .pure ha

omit hstart in
theorem safe_deeper {place : Place} (h : S place) (r : Region) : Safe S (deeper r place) := by
  unfold deeper
  split
  · exact .pure trivial
  · exact .throw h

theorem placed_variableName : Placed S (fun found => S found.2) variableName := by
  refine (placed_next hstart).bind fun lexeme hlexeme => ?_
  split
  · exact .pure hlexeme
  · exact placed_refuse hlexeme _
  · exact placed_refuse hlexeme _

theorem safe_strengthAfterOperand (r : Region) : Safe S (strengthAfterOperand r) := by
  refine (placed_peek hstart).bind fun lexeme hlexeme => ?_
  split
  · split
    · exact .pure trivial
    · exact placed_refuse hlexeme _
  · exact .pure trivial

theorem safe_ensureNoBlock : Safe S ensureNoBlock := by
  refine (placed_peek hstart).bind fun lexeme hlexeme => ?_
  split
  · exact placed_refuse hlexeme _
  · exact .pure trivial

theorem safe_ensureNoAssignment : Safe S ensureNoAssignment := by
  refine (placed_peek hstart).bind fun lexeme hlexeme => ?_
  split
  · exact placed_refuse hlexeme _
  · exact placed_refuse hlexeme _
  · exact .pure trivial

theorem safe_loopVariables : Safe S loopVariables := by
  refine (safe_takeSign hstart "(").bind fun counted _ => ?_
  split
  · refine (placed_variableName hstart).bind fun name _ => (placed_next hstart).bind fun comma hcomma => ?_
    split
    · refine (placed_variableName hstart).bind fun counter hcounter => ?_
      dsimp only
      split
      · exact .throw hcounter
      · refine (placed_next hstart).bind fun closing hclosing => ?_
        split
        · exact .pure trivial
        · exact placed_refuse hclosing _
    · exact placed_refuse hcomma _
  · exact (placed_variableName hstart).bind fun _ _ => .pure trivial

theorem safe_armEnd (needsComma : Bool) : Safe S (armEnd needsComma) := by
  refine (placed_peek hstart).bind fun lexeme hlexeme => ?_
  split
  · exact (placed_next hstart).bind fun _ _ => .pure trivial
  · exact .pure trivial
  · exact placed_refuse hlexeme _
  · split
    · exact placed_refuse hlexeme _
    · exact .pure trivial

theorem safe_params (function : String) (n : Nat) (read : List String) : Safe S (params function n read) := by
  induction n generalizing read with
  | zero => exact placed_exhausted hstart
  | succ n ih =>
    refine (placed_next hstart).bind fun lexeme hlexeme => ?_
    split
    · exact .pure trivial
    · next name _ =>
      split
      · exact placed_refuse hlexeme _
      · refine (safe_bringIn name false).bind fun _ _ => (placed_next hstart).bind fun separator hseparator => ?_
        split
        · exact .pure trivial
        · exact ih _
        · exact placed_refuse hseparator _
    · exact placed_refuse hlexeme _

omit hstart

/-! ## Section 4 - expressions that are put together -/

section expressions
variable {e left right : Expr}

theorem placed_ensureBool (h : e.Told S) : Placed S (Expr.Told S) (ensureBool e) := by
  unfold ensureBool
  split
  · exact .throw h.start
  · exact .pure h

theorem placed_ensureIterable (h : e.Told S) : Placed S (Expr.Told S) (ensureIterable e) := by
  unfold ensureIterable
  split
  · exact .pure h
  · exact .throw h.place
  · split
    · exact .throw h.start
    · exact .pure h

theorem placed_join {lexeme : Lexeme} (h : S lexeme.place) (hleft : left.Told S) (hright : right.Told S) :
    Placed S (Expr.Told S) (join lexeme left right) := by
  unfold join
  split
  · refine (placed_ensureBool hright).bind fun _ _ => (placed_ensureBool hleft).bind fun left hleft => .pure ?_
    exact .of_left h hleft rfl nofun
  · refine (placed_ensureBool hright).bind fun _ _ => (placed_ensureBool hleft).bind fun left hleft => .pure ?_
    exact .of_left h hleft rfl nofun
  · exact .pure (.of_left h hleft rfl nofun)
  · exact .pure (.of_place hleft.start rfl nofun)
  · exact .pure (.of_place hleft.start rfl nofun)
  · split
    · exact .pure (.of_left h hleft rfl nofun)
    · exact placed_refuse h _

theorem told_negate {place : Place} (h : S place) (he : e.Told S) : (negate place e).Told S := by
  unfold negate
  split
  · split <;> exact .of_place h rfl nofun
  · exact .of_place he.place rfl nofun
  · exact .of_place h rfl nofun

theorem safe_checkTarget (h : e.Told S) : Safe S (checkTarget e) := by
  unfold checkTarget
  split
  · exact .pure trivial
  · refine Placed.get.bind fun s _ => ?_
    split
    · exact .throw h.place
    · exact .pure trivial
  · next root path =>
    obtain ⟨hroot, hpath⟩ := h.steps root path rfl
    split
    · next place hmethod =>
      obtain ⟨step, hstep, hplace⟩ := List.exists_of_findSome?_eq_some hmethod
      have htold := hpath step hstep
      cases step with
      | method p name args =>
        cases hplace
        exact .throw htold
      | field p name => cases hplace
      | index p index => cases hplace
      | guard => cases hplace
    · split
      · exact .pure trivial
      · exact .pure trivial
      · exact .throw hroot
  · exact .throw h.place
  · exact .throw h.place
  · exact .throw h.place
  · exact .throw h.place
  · exact .throw h.place

theorem safe_checkCases (ranged : Bool) {cases : List Expr} (h : ∀ e ∈ cases, e.Told S) :
    Safe S (checkCases ranged cases) := by
  induction cases generalizing ranged with
  | nil => exact .pure trivial
  | cons e es ih =>
    have hfirst : S e.start := (h e List.mem_cons_self).start
    have hmore : ∀ e ∈ es, e.Told S := fun e' hmem => h e' (List.mem_cons_of_mem e hmem)
    unfold checkCases
    split
    · exact .throw hfirst
    · split
      · exact .throw hfirst
      · exact ih _ hmore

theorem told_asExpr {place : Place} (h : S place) (s : Stmt) : (s.asExpr place).Told S := by
  unfold Stmt.asExpr
  split <;> exact .of_place h rfl nofun

end expressions

/-! ## Section 5 - readers that call each other -/

/-- With a measure all readers are placed. -/
structure Readers (S : Place → Prop) (n : Nat) : Prop where
  expr (r : Region) : Placed S (Expr.Told S) (expr n r)
  operators (r : Region) (parent : Nat) {last : Place} {left : Expr} (hlast : S last) (h : left.Told S) :
    Placed S (Expr.Told S) (operators n r parent last left)
  unary (r : Region) : Placed S (Expr.Told S) (unary n r)
  primary (r : Region) : Placed S (Expr.Told S) (primary n r)
  compound (r : Region) : Safe S (compound? n r)
  steps (r : Region) {read : List Step} (h : ∀ step ∈ read, step.Told S) :
    Placed S (fun path => ∀ step ∈ path, step.Told S) (steps n r read)
  property (r : Region) {read : List Step} (h : ∀ step ∈ read, step.Told S) :
    Placed S (fun path => ∀ step ∈ path, step.Told S) (property n r read)
  indexing (r : Region) (place : Place) {read : List Step} (h : ∀ step ∈ read, step.Told S) :
    Placed S (fun path => ∀ step ∈ path, step.Told S) (indexing n r place read)
  args (r : Region) (function : String) : Safe S (args n r function)
  moreArgs (r : Region) (function : String) (read : List Expr) : Safe S (moreArgs n r function read)
  arrayItems (r : Region) (read : List Expr) : Safe S (arrayItems n r read)
  mapEntries (r : Region) (read : List (String × Expr)) : Safe S (mapEntries n r read)
  textParts (r : Region) (read : List Expr) : Safe S (textParts n r read)
  block (r : Region) : Safe S (block n r)
  blockRest (r : Region) (read : List Stmt) : Safe S (blockRest n r read)
  statement (r : Region) : Safe S (statement n r)
  operand (r : Region) : Safe S (operand? n r)
  declaration (r : Region) (place : Place) (constant : Bool) : Safe S (declaration n r place constant)
  condition (r : Region) : Safe S (condition n r)
  branch (r : Region) : Safe S (branch n r)
  whileLoop (r : Region) : Safe S (whileLoop n r)
  doLoop (r : Region) : Safe S (doLoop n r)
  forLoop (r : Region) : Safe S (forLoop n r)
  choice (r : Region) : Safe S (choice n r)
  arms (r : Region) (read : List Arm) {otherwise : Option (Place × List Stmt)}
    (h : ∀ place action, otherwise = some (place, action) → S place) : Safe S (arms n r read otherwise)
  caseList (r : Region) {read : List Expr} (h : ∀ e ∈ read, e.Told S) :
    Placed S (fun cases => ∀ e ∈ cases, e.Told S) (caseList n r read)
  armAction (r : Region) : Safe S (armAction n r)
  attempt (r : Region) : Safe S (attempt n r)
  function {place : Place} (h : S place) : Safe S (function n place)

namespace Readers
variable {n : Nat} (ih : Readers S n) (hstart : S .start)
include ih hstart

omit hstart in
theorem expr_succ (r : Region) : Placed S (Expr.Told S) (Grammar.expr (n + 1) r) := by
  unfold Grammar.expr
  exact (ih.unary r).bind fun left hleft => ih.operators r 1 hleft.place hleft

theorem operators_succ (r : Region) (parent : Nat) {last : Place} {left : Expr} (hlast : S last) (h : left.Told S) :
    Placed S (Expr.Told S) (Grammar.operators (n + 1) r parent last left) := by
  unfold Grammar.operators
  refine (safe_strengthAfterOperand hstart r).bind fun here _ => ?_
  split
  · exact .pure h
  · refine (placed_next hstart).bind fun operator hoperator => (ih.unary r).bind fun right hright => ?_
    refine (safe_strengthAfterOperand hstart r).bind fun after _ => ?_
    extract_lets passed rest
    have joined (right : Expr) (hright : right.Told S) : Placed S (Expr.Told S) (rest right) :=
      (safe_deeper hlast r).bind fun r _ => (placed_join hoperator h hright).bind fun joined hjoined =>
        ih.operators r parent hoperator hjoined
    split
    · exact (ih.operators r passed hright.place hright).bind joined
    · exact joined right hright

theorem unary_succ (r : Region) : Placed S (Expr.Told S) (Grammar.unary (n + 1) r) := by
  unfold Grammar.unary
  refine (placed_peek hstart).bind fun lexeme hlexeme => ?_
  -- the operand of an operator lies one level deeper
  have operand {f : Expr → Parse Expr} (hf : ∀ e, e.Told S → Placed S (Expr.Told S) (f e)) :
      Placed S (Expr.Told S) (next >>= fun _ => deeper r lexeme.place >>= fun r => Grammar.unary n r >>= f) :=
    (placed_next hstart).bind fun _ _ => (safe_deeper hlexeme r).bind fun r _ => (ih.unary r).bind hf
  split
  · exact operand fun e he => .pure (told_negate hlexeme he)
  · refine operand fun e he => ?_
    split
    · exact .pure he
    · exact .pure he
    · exact .pure (.of_place hlexeme rfl nofun)
  · exact operand fun e _ => .pure (.of_place hlexeme rfl nofun)
  · exact placed_refuse hlexeme _
  · exact ih.primary r

theorem primary_succ (r : Region) : Placed S (Expr.Told S) (Grammar.primary (n + 1) r) := by
  unfold Grammar.primary
  refine (placed_peek hstart).bind fun lexeme hlexeme => ?_
  extract_lets place rest found
  have hrest (root : Expr) (hroot : root.Told S) : Placed S (Expr.Told S) (rest root) := by
    refine (ih.steps r (List.forall_mem_nil _)).bind fun path hpath => ?_
    split
    · exact .pure hroot
    · exact .pure (.chain hroot hpath)
  have refused (cause : ParseCause) : Placed S (Expr.Told S) (refuse lexeme cause >>= rest) :=
    (placed_refuse hlexeme cause).bind hrest
  -- the root is a single word
  have word {root : Expr} (h : root.Told S) : Placed S (Expr.Told S) (next >>= fun _ => rest root) :=
    (placed_next hstart).bind fun _ _ => hrest root h
  -- the root goes on one level deeper, behind the word that tells what it is
  have after {α : Type} {p : Region → Parse α} (h : ∀ r, Safe S (p r)) {root : α → Expr} (hroot : ∀ a, (root a).Told S) :
      Placed S (Expr.Told S) (deeper r place >>= fun r => p r >>= fun a => rest (root a)) :=
    (safe_deeper hlexeme r).bind fun r _ => (h r).bind fun a _ => hrest (root a) (hroot a)
  split
  case h_1 | h_2 | h_3 | h_4 | h_5 | h_6 => exact word (.of_place hlexeme rfl nofun)
  case h_7 =>
    exact (placed_next hstart).bind fun _ _ => after (fun r => ih.textParts r _) fun _ => .of_place hlexeme rfl nofun
  case h_8 =>
    refine (placed_next hstart).bind fun _ _ => (safe_takeSign hstart ")").bind fun empty _ => ?_
    split
    · exact hrest _ (.of_place hlexeme rfl nofun)
    · refine (safe_deeper hlexeme r).bind fun r _ => (ih.expr r).bind fun e he => ?_
      refine (placed_next hstart).bind fun closing hclosing => ?_
      split
      · exact hrest e he
      · exact (placed_refuse hclosing _).bind hrest
  case h_9 =>
    exact (placed_next hstart).bind fun _ _ => after (fun r => ih.arrayItems r []) fun _ => .of_place hlexeme rfl nofun
  case h_10 =>
    exact (placed_next hstart).bind fun _ _ => after (fun r => ih.mapEntries r []) fun _ => .of_place hlexeme rfl nofun
  case h_11 s _ =>
    refine (placed_next hstart).bind fun _ _ => (safe_takeSign hstart "(").bind fun called _ => ?_
    split
    · exact after (fun r => ih.args r s) fun _ => .of_place hlexeme rfl nofun
    · exact hrest _ (.of_place hlexeme rfl nofun)
  case h_12 s _ =>
    refine (placed_next hstart).bind fun _ _ => (placed_peek hstart).bind fun opening _ => ?_
    split
    · exact (placed_next hstart).bind fun _ _ => after (fun r => ih.args r s) fun _ => .of_place hlexeme rfl nofun
    · split
      · split
        · exact hrest _ (.of_place hlexeme rfl nofun)
        · exact refused _
      · exact refused _
  case h_13 => exact refused _
  case h_14 =>
    have hfound (s : Option Stmt) : Placed S (Expr.Told S) (found s) := by
      cases s with
      | none => exact refused _
      | some s => exact hrest _ (told_asExpr hlexeme s)
    split
    · exact (ih.compound _).bind fun s _ => hfound s
    · exact hfound none

theorem compound_succ (r : Region) : Safe S (Grammar.compound? (n + 1) r) := by
  unfold Grammar.compound?
  refine (placed_peek hstart).bind fun lexeme hlexeme => ?_
  have inside {α : Type} {p : Region → Parse α} (h : ∀ r, Safe S (p r)) (found : α → Stmt) :
      Safe S (deeper r lexeme.place >>= fun r => p r >>= fun a => pure (some (found a))) :=
    (safe_deeper hlexeme r).bind fun r _ => (h r).bind fun _ _ => .pure trivial
  split
  · exact inside ih.block _
  · exact inside ih.branch id
  · exact inside ih.whileLoop id
  · exact inside ih.whileLoop id
  · exact inside ih.doLoop id
  · exact inside ih.forLoop id
  · exact inside ih.choice id
  · exact .pure trivial

theorem steps_succ (r : Region) {read : List Step} (h : ∀ step ∈ read, step.Told S) :
    Placed S (fun path => ∀ step ∈ path, step.Told S) (Grammar.steps (n + 1) r read) := by
  have hguarded : ∀ step ∈ read ++ [.guard], step.Told S :=
    List.forall_mem_append.mpr ⟨h, List.forall_mem_singleton.mpr trivial⟩
  unfold Grammar.steps
  refine (placed_peek hstart).bind fun lexeme hlexeme => ?_
  have inner : Safe S (deeper r lexeme.place) := safe_deeper hlexeme r
  split
  · exact (placed_next hstart).bind fun _ _ => inner.bind fun r _ => ih.property r h
  · exact (placed_next hstart).bind fun _ _ => inner.bind fun r _ => ih.property r hguarded
  · exact (placed_next hstart).bind fun _ _ => inner.bind fun r _ => ih.indexing r lexeme.place h
  · exact (placed_next hstart).bind fun _ _ => inner.bind fun r _ => ih.indexing r lexeme.place hguarded
  · exact .pure h

omit hstart in
/-- The steps behind one more step. -/
theorem steps_snoc (r : Region) {read : List Step} (h : ∀ step ∈ read, step.Told S) {step : Step} (hstep : step.Told S) :
    Placed S (fun path => ∀ step ∈ path, step.Told S) (Grammar.steps n r (read ++ [step])) :=
  ih.steps r (List.forall_mem_append.mpr ⟨h, List.forall_mem_singleton.mpr hstep⟩)

theorem property_succ (r : Region) {read : List Step} (h : ∀ step ∈ read, step.Told S) :
    Placed S (fun path => ∀ step ∈ path, step.Told S) (Grammar.property (n + 1) r read) := by
  unfold Grammar.property
  refine (placed_peek hstart).bind fun step hstep => ?_
  have method (name : String) : Placed S (fun path => ∀ step ∈ path, step.Told S)
      (deeper r step.place >>= fun inner => Grammar.args n inner name >>= fun arguments =>
        Grammar.steps n r (read ++ [.method step.place name arguments])) :=
    (safe_deeper hstep r).bind fun inner _ => (ih.args inner name).bind fun _ _ => ih.steps_snoc r h hstep
  split
  · refine (placed_next hstart).bind fun _ _ => (safe_takeSign hstart "(").bind fun called _ => ?_
    split
    · exact method _
    · exact ih.steps_snoc r h trivial
  · split
    · refine (placed_next hstart).bind fun _ _ => (safe_takeSign hstart "(").bind fun called _ => ?_
      split
      · exact method _
      · exact placed_refuse hstep _
    · exact placed_refuse hstep _
  · exact .throw hstep

theorem indexing_succ (r : Region) (place : Place) {read : List Step} (h : ∀ step ∈ read, step.Told S) :
    Placed S (fun path => ∀ step ∈ path, step.Told S) (Grammar.indexing (n + 1) r place read) := by
  unfold Grammar.indexing
  refine (ih.expr r).bind fun index _ => (placed_next hstart).bind fun closing hclosing => ?_
  split
  · exact ih.steps_snoc r h trivial
  · exact placed_refuse hclosing _

theorem args_succ (r : Region) (function : String) : Safe S (Grammar.args (n + 1) r function) := by
  unfold Grammar.args
  refine (placed_peek hstart).bind fun lexeme hlexeme => ?_
  split
  · exact placed_refuse hlexeme _
  · exact (placed_next hstart).bind fun _ _ => .pure trivial
  · exact ih.moreArgs r function []

theorem moreArgs_succ (r : Region) (function : String) (read : List Expr) :
    Safe S (Grammar.moreArgs (n + 1) r function read) := by
  unfold Grammar.moreArgs
  refine (placed_peek hstart).bind fun _ _ => ?_
  extract_lets rest
  have hrest (read : List Expr) : Safe S (rest read) := by
    refine (placed_next hstart).bind fun lexeme hlexeme => ?_
    split
    · exact .pure trivial
    · exact ih.moreArgs r function read
    · exact placed_refuse hlexeme _
    · exact placed_refuse hlexeme _
  split
  · exact hrest _
  · exact (ih.expr r).bind fun _ _ => hrest _

theorem arrayItems_succ (r : Region) (read : List Expr) : Safe S (Grammar.arrayItems (n + 1) r read) := by
  unfold Grammar.arrayItems
  refine (placed_peek hstart).bind fun lexeme hlexeme => ?_
  split
  · exact (placed_next hstart).bind fun _ _ => .pure trivial
  · exact placed_refuse hlexeme _
  · refine (ih.expr r).bind fun item _ => (placed_peek hstart).bind fun separator hseparator => ?_
    split
    · exact (placed_next hstart).bind fun _ _ => ih.arrayItems r _
    · exact ih.arrayItems r _
    · exact placed_refuse hseparator _
    · exact placed_refuse hseparator _

theorem mapEntries_succ (r : Region) (read : List (String × Expr)) :
    Safe S (Grammar.mapEntries (n + 1) r read) := by
  unfold Grammar.mapEntries
  refine (placed_next hstart).bind fun lexeme hlexeme => ?_
  split
  case h_3 | h_4 =>
    split
    · exact placed_refuse hlexeme _
    · refine (placed_next hstart).bind fun colon hcolon => ?_
      split
      · refine (ih.expr r).bind fun value _ => (placed_peek hstart).bind fun separator hseparator => ?_
        split
        · exact (placed_next hstart).bind fun _ _ => ih.mapEntries r _
        · exact ih.mapEntries r _
        · exact placed_refuse hseparator _
        · exact placed_refuse hseparator _
      · exact placed_refuse hcolon _
  case h_6 => split <;> exact placed_refuse hlexeme _
  · exact .pure trivial
  · exact placed_refuse hlexeme _
  · exact placed_refuse hlexeme _
  · exact placed_refuse hlexeme _

theorem textParts_succ (r : Region) (read : List Expr) : Safe S (Grammar.textParts (n + 1) r read) := by
  unfold Grammar.textParts
  refine (placed_peek hstart).bind fun opening _ => (ih.block _).bind fun body _ => ?_
  refine (placed_next hstart).bind fun lexeme hlexeme => ?_
  split
  · exact .pure trivial
  · exact ih.textParts r _
  · exact placed_refuse hlexeme _

theorem block_succ (r : Region) : Safe S (Grammar.block (n + 1) r) := by
  unfold Grammar.block
  refine (placed_next hstart).bind fun opening hopening => ?_
  split
  · refine (safe_deeper hopening _).bind fun r _ => ?_
    exact (placed_withScope (ih.blockRest r [])).bind fun _ _ => .pure trivial
  · exact placed_refuse hopening _

theorem blockRest_succ (r : Region) (read : List Stmt) : Safe S (Grammar.blockRest (n + 1) r read) := by
  unfold Grammar.blockRest
  refine (placed_peek hstart).bind fun lexeme hlexeme => ?_
  split
  · exact (placed_next hstart).bind fun _ _ => .pure trivial
  · exact placed_refuse hlexeme _
  · refine (ih.statement r).bind fun statement _ => ?_
    split
    · exact ih.blockRest r read
    · refine (placed_peek hstart).bind fun separator hseparator => ?_
      split
      · exact (placed_next hstart).bind fun _ _ => .pure trivial
      · exact (placed_next hstart).bind fun _ _ => ih.blockRest r _
      · split
        · exact ih.blockRest r _
        · exact placed_refuse hseparator _

theorem statement_succ (r : Region) : Safe S (Grammar.statement (n + 1) r) := by
  unfold Grammar.statement
  refine (placed_peek hstart).bind fun lexeme hlexeme => ?_
  extract_lets place
  -- what belongs to the statement lies one level deeper
  have inside {α : Type} {p : Region → Parse α} (h : ∀ r, Safe S (p r)) (found : α → Stmt) :
      Safe S (deeper r place >>= fun r => p r >>= fun a => pure (some (found a))) :=
    (safe_deeper hlexeme r).bind fun r _ => (h r).bind fun _ _ => .pure trivial
  split
  case h_1 => exact .pure trivial
  case h_2 => exact (placed_next hstart).bind fun _ _ => .pure trivial
  case h_3 =>
    split
    · exact (placed_next hstart).bind fun _ _ => (ih.function hlexeme).bind fun _ _ => .pure trivial
    · exact placed_refuse hlexeme _
  case h_4 =>
    split
    · refine (placed_next hstart).bind fun _ _ => (placed_next hstart).bind fun keyword hkeyword => ?_
      split
      · exact (ih.function hkeyword).bind fun _ _ => .pure trivial
      · exact placed_refuse hkeyword _
    · exact placed_refuse hlexeme _
  case h_5 =>
    split
    · exact (placed_next hstart).bind fun _ _ => .pure trivial
    · exact placed_refuse hlexeme _
  case h_6 =>
    split
    · exact (placed_next hstart).bind fun _ _ => inside ih.operand _
    · exact placed_refuse hlexeme _
  case h_7 | h_8 => exact (placed_next hstart).bind fun _ _ => inside ih.operand _
  case h_9 => exact (placed_next hstart).bind fun _ _ => inside (fun r => ih.declaration r _ false) id
  case h_10 => exact (placed_next hstart).bind fun _ _ => inside (fun r => ih.declaration r _ true) id
  case h_11 => exact inside ih.attempt id
  case h_12 =>
    refine (ih.compound r).bind fun found _ => ?_
    split
    · exact .pure trivial
    · refine (safe_deeper hlexeme r).bind fun r _ => (ih.expr r).bind fun target htarget => ?_
      refine (placed_peek hstart).bind fun operator _ => ?_
      split
      · exact .pure trivial
      · refine (placed_next hstart).bind fun _ _ => (ih.expr r).bind fun value _ => ?_
        exact (safe_checkTarget htarget).bind fun _ _ => .pure trivial

theorem operand_succ (r : Region) : Safe S (Grammar.operand? (n + 1) r) := by
  unfold Grammar.operand?
  refine (placed_peek hstart).bind fun lexeme hlexeme => ?_
  split
  · exact .pure trivial
  · exact .pure trivial
  · split
    · exact (ih.expr r).bind fun _ _ => .pure trivial
    · exact .pure trivial
  · exact (ih.expr r).bind fun _ _ => .pure trivial

theorem declaration_succ (r : Region) (place : Place) (constant : Bool) :
    Safe S (Grammar.declaration (n + 1) r place constant) := by
  unfold Grammar.declaration
  refine (placed_variableName hstart).bind fun _ _ => (safe_takeSign hstart "=").bind fun valued _ => ?_
  extract_lets rest
  have hrest (value : Option Expr) : Safe S (rest value) := (safe_bringIn _ constant).bind fun _ _ => .pure trivial
  split
  · exact (ih.expr r).bind fun _ _ => hrest _
  · exact hrest none

theorem condition_succ (r : Region) : Safe S (Grammar.condition (n + 1) r) := by
  unfold Grammar.condition
  refine (safe_ensureNoBlock hstart).bind fun _ _ => (ih.expr _).bind fun e he => ?_
  exact (placed_ensureBool he).bind fun _ _ => (safe_ensureNoAssignment hstart).bind fun _ _ => .pure trivial

theorem branch_succ (r : Region) : Safe S (Grammar.branch (n + 1) r) := by
  unfold Grammar.branch
  refine (placed_next hstart).bind fun keyword hkeyword => (ih.condition r).bind fun question _ => ?_
  refine (ih.block r).bind fun yes _ => (safe_takeSign hstart "else").bind fun other _ => ?_
  split
  · refine (placed_peek hstart).bind fun _ _ => ?_
    split
    · exact (safe_deeper hkeyword r).bind fun r _ => (ih.branch r).bind fun _ _ => .pure trivial
    · exact (ih.block r).bind fun _ _ => .pure trivial
  · exact .pure trivial

theorem whileLoop_succ (r : Region) : Safe S (Grammar.whileLoop (n + 1) r) := by
  unfold Grammar.whileLoop
  refine (placed_next hstart).bind fun keyword _ => ?_
  extract_lets rest
  have hrest (question : Option Expr) : Safe S (rest question) := (ih.block _).bind fun _ _ => .pure trivial
  split
  · exact hrest none
  · exact (ih.condition r).bind fun _ _ => hrest _

theorem doLoop_succ (r : Region) : Safe S (Grammar.doLoop (n + 1) r) := by
  unfold Grammar.doLoop
  refine (placed_next hstart).bind fun keyword _ => (ih.block _).bind fun body _ => ?_
  refine (placed_next hstart).bind fun word hword => ?_
  split
  · exact (ih.condition r).bind fun _ _ => .pure trivial
  · exact (ih.condition r).bind fun _ _ => .pure trivial
  · exact placed_refuse hword _

theorem forLoop_succ (r : Region) : Safe S (Grammar.forLoop (n + 1) r) := by
  unfold Grammar.forLoop
  refine (placed_next hstart).bind fun keyword _ => (safe_loopVariables hstart).bind fun names _ => ?_
  refine (placed_next hstart).bind fun word hword => ?_
  split
  · refine (safe_ensureNoBlock hstart).bind fun _ _ => (ih.expr _).bind fun e he => ?_
    refine (placed_ensureIterable he).bind fun items _ => placed_withScope ?_
    have counted : Safe S (names.2.forM (bringIn · false)) := by
      cases names.2 with
      | none => exact .pure trivial
      | some counter => exact safe_bringIn counter false
    refine counted.bind fun _ _ => (safe_bringIn _ false).bind fun _ _ => ?_
    exact (ih.block _).bind fun _ _ => .pure trivial
  · exact placed_refuse hword _

theorem choice_succ (r : Region) : Safe S (Grammar.choice (n + 1) r) := by
  unfold Grammar.choice
  refine (placed_next hstart).bind fun keyword _ => (ih.expr _).bind fun subject _ => ?_
  refine (placed_next hstart).bind fun opening hopening => ?_
  split
  · have nothing : ∀ place action, (none : Option (Place × List Stmt)) = some (place, action) → S place := nofun
    exact (ih.arms _ [] nothing).bind fun _ _ => .pure trivial
  · exact placed_refuse hopening _

theorem arms_succ (r : Region) (read : List Arm) {otherwise : Option (Place × List Stmt)}
    (h : ∀ place action, otherwise = some (place, action) → S place) :
    Safe S (Grammar.arms (n + 1) r read otherwise) := by
  unfold Grammar.arms
  refine (placed_peek hstart).bind fun lexeme hlexeme => ?_
  split
  · exact (placed_next hstart).bind fun _ _ => .pure trivial
  · exact placed_refuse hlexeme _
  · refine (placed_next hstart).bind fun _ _ => (placed_peek hstart).bind fun word hword => ?_
    split
    · exact placed_refuse hword _
    · refine (ih.armAction r).bind fun action _ => (safe_armEnd hstart _).bind fun _ _ => ih.arms r read ?_
      intro place action heq
      cases heq
      exact hlexeme
  · exact placed_refuse hlexeme _
  · exact .throw (h _ _ rfl)
  · refine (ih.caseList r (List.forall_mem_nil _)).bind fun cases hcases => ?_
    refine (safe_takeSign hstart "if").bind fun conditional _ => ?_
    extract_lets rest
    have hrest (question : Option Expr) : Safe S (rest question) :=
      (ih.armAction r).bind fun action _ => (safe_checkCases _ hcases).bind fun _ _ =>
        (safe_armEnd hstart _).bind fun _ _ => ih.arms r _ fun _ _ heq => nomatch heq
    split
    · exact (ih.condition r).bind fun _ _ => hrest _
    · exact hrest none

theorem caseList_succ (r : Region) {read : List Expr} (h : ∀ e ∈ read, e.Told S) :
    Placed S (fun cases => ∀ e ∈ cases, e.Told S) (Grammar.caseList (n + 1) r read) := by
  unfold Grammar.caseList
  refine ((ih.expr _).retold _).bind fun e he => (safe_takeSign hstart "|").bind fun more _ => ?_
  have hread : ∀ e' ∈ read ++ [e], e'.Told S := List.forall_mem_append.mpr ⟨h, List.forall_mem_singleton.mpr he⟩
  split
  · exact ih.caseList r hread
  · exact .pure hread

theorem armAction_succ (r : Region) : Safe S (Grammar.armAction (n + 1) r) := by
  unfold Grammar.armAction
  refine (placed_next hstart).bind fun arrow harrow => ?_
  split
  · exact (placed_withScope (ih.statement r)).bind fun _ _ => .pure trivial
  · exact placed_refuse harrow _

theorem attempt_succ (r : Region) : Safe S (Grammar.attempt (n + 1) r) := by
  unfold Grammar.attempt
  refine (placed_next hstart).bind fun keyword _ => (ih.block r).bind fun body _ => ?_
  refine (placed_next hstart).bind fun word hword => ?_
  split
  · refine (safe_takeSign hstart "(").bind fun named _ => ?_
    split
    · refine (placed_variableName hstart).bind fun name _ => (placed_next hstart).bind fun closing hclosing => ?_
      split
      · refine placed_withScope ?_
        exact (safe_bringIn _ false).bind fun _ _ => (ih.block r).bind fun _ _ => .pure trivial
      · exact placed_refuse hclosing _
    · exact (ih.block r).bind fun _ _ => .pure trivial
  · exact placed_refuse hword _

theorem function_succ {place : Place} (h : S place) : Safe S (Grammar.function (n + 1) place) := by
  unfold Grammar.function
  refine (placed_next hstart).bind fun lexeme hlexeme => ?_
  split
  · refine (placed_peek hstart).bind fun opening hopening => ?_
    split
    · refine (placed_next hstart).bind fun _ _ => Placed.get.bind fun s _ => ?_
      refine Placed.bind (.modify fun _ => List.Subset.refl _) fun _ _ => ?_
      refine (safe_params hstart _ n []).bind fun names _ => (placed_peek hstart).bind fun brace hbrace => ?_
      split
      · refine (ih.block _).bind fun body _ => Placed.get.bind fun s' _ => ?_
        extract_lets rest
        have hrest : Safe S (rest ()) := .modify fun _ => List.Subset.refl _
        split
        · exact Placed.bind (P := fun _ => True) (.throw h) fun _ _ => hrest
        · exact hrest
      · exact .throw hbrace
    · exact .throw hopening
  · exact .throw hlexeme
  · exact .throw hlexeme

omit ih in
/-- A measure that is used up makes every reader refuse the next word. -/
theorem exhausted : Readers S 0 where
  expr _ := placed_exhausted hstart
  operators _ _ _ _ _ _ := placed_exhausted hstart
  unary _ := placed_exhausted hstart
  primary _ := placed_exhausted hstart
  compound _ := placed_exhausted hstart
  steps _ _ _ := placed_exhausted hstart
  property _ _ _ := placed_exhausted hstart
  indexing _ _ _ _ := placed_exhausted hstart
  args _ _ := placed_exhausted hstart
  moreArgs _ _ _ := placed_exhausted hstart
  arrayItems _ _ := placed_exhausted hstart
  mapEntries _ _ := placed_exhausted hstart
  textParts _ _ := placed_exhausted hstart
  block _ := placed_exhausted hstart
  blockRest _ _ := placed_exhausted hstart
  statement _ := placed_exhausted hstart
  operand _ := placed_exhausted hstart
  declaration _ _ _ := placed_exhausted hstart
  condition _ := placed_exhausted hstart
  branch _ := placed_exhausted hstart
  whileLoop _ := placed_exhausted hstart
  doLoop _ := placed_exhausted hstart
  forLoop _ := placed_exhausted hstart
  choice _ := placed_exhausted hstart
  arms _ _ _ _ := placed_exhausted hstart
  caseList _ _ _ := placed_exhausted hstart
  armAction _ := placed_exhausted hstart
  attempt _ := placed_exhausted hstart
  function _ := placed_exhausted hstart

/-- With one more on the measure the readers are placed again. -/
theorem succ : Readers S (n + 1) where
  expr := ih.expr_succ
  operators r parent _ _ := ih.operators_succ hstart r parent
  unary := ih.unary_succ hstart
  primary := ih.primary_succ hstart
  compound := ih.compound_succ hstart
  steps r _ := ih.steps_succ hstart r
  property r _ := ih.property_succ hstart r
  indexing r place _ := ih.indexing_succ hstart r place
  args := ih.args_succ hstart
  moreArgs := ih.moreArgs_succ hstart
  arrayItems := ih.arrayItems_succ hstart
  mapEntries := ih.mapEntries_succ hstart
  textParts := ih.textParts_succ hstart
  block := ih.block_succ hstart
  blockRest := ih.blockRest_succ hstart
  statement := ih.statement_succ hstart
  operand := ih.operand_succ hstart
  declaration := ih.declaration_succ hstart
  condition := ih.condition_succ hstart
  branch := ih.branch_succ hstart
  whileLoop := ih.whileLoop_succ hstart
  doLoop := ih.doLoop_succ hstart
  forLoop := ih.forLoop_succ hstart
  choice := ih.choice_succ hstart
  arms r read _ := ih.arms_succ hstart r read
  caseList r _ := ih.caseList_succ hstart r
  armAction := ih.armAction_succ hstart
  attempt := ih.attempt_succ hstart
  function := ih.function_succ hstart

end Readers

include hstart in
theorem readers (n : Nat) : Readers S n := by
  induction n with
  | zero => exact .exhausted hstart
  | succ n ih => exact ih.succ hstart

include hstart in
theorem safe_topRest (n : Nat) (read : List Stmt) : Safe S (topRest n read) := by
  induction n generalizing read with
  | zero => exact placed_exhausted hstart
  | succ n ih =>
    refine (placed_peek hstart).bind fun lexeme _ => ?_
    split
    · exact .pure trivial
    · refine ((readers hstart n).statement _).bind fun statement _ => ?_
      split
      · exact ih read
      · refine (placed_peek hstart).bind fun separator hseparator => ?_
        split
        · exact .pure trivial
        · split
          · exact ih _
          · exact (placed_next hstart).bind fun _ _ => ih _
        · split
          · exact ih _
          · exact placed_refuse hseparator _

end readers

end Grammar

/-! ## Section 6 - bodies -/

/-- The fault of a body lies in the body, at the start of a line or right behind a character. -/
theorem Program.parse_fault_isOf {body : String} {fault : ParseFault} (hruled : Lexer.Ruled body.toList)
    (h : Program.parse body = .error fault) : fault.place.IsOf body.toList := by
  have hwords : Grammar.Progress.Told (·.IsOf body.toList) ⟨Lexer.words body, [], []⟩ := Lexer.isOf_words hruled
  have hread := Grammar.safe_topRest (Place.isOf_start _) (Grammar.measure (Lexer.words body)) [] _ hwords
  unfold Program.parse at h
  dsimp only at h
  split at h
  · cases h
  · next hparse =>
    cases h
    rw [show Grammar.topRest _ _ _ = _ from hparse] at hread
    exact hread

/-- A body on one line that is not ruled: its fault is told on a second line. -/
example : (match Program.parse "`\r` )" with | .error fault => some fault.place | .ok _ => none) = some ⟨2, 3⟩ := by
  decide +kernel

end HotReload.Body
