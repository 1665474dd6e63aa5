import HotReload.Proofs.Unit.Reading
import HotReload.Types.Compiler

/-! # Reflection: a type that is asked for by an expression

    An expression that calls the reflection of a compiler with a name gives the type
    that the name stands for.  This holds for every name that a declaration can have,
    because the characters of such a name stand for themselves in a string; and it holds
    as long as no module offers a function of the same signature, which would hide the
    reflection.

    The expression is followed from its characters to its words, from there to its
    syntax, and on to its value. -/

namespace HotReload.Body

open Scan

/-! ## Section 1 - words -/

/-- A word that leaves no text open is followed by the words from the cursor after it. -/
theorem wordsFrom_of_word {negatable : Bool} {c after : Cursor} {lexeme : Lexeme}
    (hskip : Lexer.skipOne? c = none) (hread : Lexer.readWord negatable c = (lexeme, after))
    (hopen : Lexer.openings lexeme.token [] = ([], false)) (hshort : after.rest.length < c.rest.length)
    {next : Bool} (hnext : lexeme.token.precedesNumber = next) :
    Lexer.wordsFrom negatable [] c = lexeme :: Lexer.wordsFrom next [] after := by
  rw [Lexer.wordsFrom, hskip]
  simp only [hread, hopen]
  simp only [Bool.false_eq_true, if_false, if_pos hshort]
  rw [← hnext]
  rfl

theorem wordsFrom_end (negatable : Bool) (p : Place) :
    Lexer.wordsFrom negatable [] ⟨p, []⟩ = [⟨.eof, p⟩] := by
  rw [Lexer.wordsFrom]
  rfl

/-- The characters of names stand for themselves in a string. -/
theorem readString_name {name rest : List Char} {opening : Place} (hname : ∀ c ∈ name, isIdentPart c = true)
    (p : Place) : Lexer.readString false '"' opening p (name ++ '"' :: ')' :: rest) =
      .closed name ⟨(p.advance name).next '"', ')' :: rest⟩ := by
  induction name generalizing p with
  | nil =>
    rw [List.nil_append, Lexer.readString.eq_def]
    rfl
  | cons c cs ih =>
    have hc : isIdentPart c = true := hname c List.mem_cons_self
    have hquote : c ≠ '"' := ne_of_isIdentPart hc (by decide)
    have hline : c ≠ '\n' := ne_of_isIdentPart hc (by decide)
    have hslash : c ≠ '\\' := ne_of_isIdentPart hc (by decide)
    rw [List.cons_append, Lexer.readString.eq_def]
    dsimp only
    rw [if_neg hquote, if_neg (by decide), if_neg hline, if_neg hslash,
      ih fun x hx => hname x (List.mem_cons_of_mem c hx)]
    rfl

/-- The text of a call of the reflection. -/
def typeRefCall (name : List Char) : List Char := "type_ref(\"".toList ++ (name ++ "\")".toList)

theorem words_typeRefCall {name : List Char} (hname : ∀ c ∈ name, isIdentPart c = true) {text : String}
    (htext : text.toList = typeRefCall name) :
    ∃ p₁ p₂ p₃ p₄ p₅, Lexer.words text = [⟨.name "type_ref", p₁⟩, ⟨.sign "(", p₂⟩,
      ⟨.string (String.ofList name), p₃⟩, ⟨.sign ")", p₄⟩, ⟨.eof, p₅⟩] := by
  let p₁ : Place := .start
  let p₂ : Place := p₁.advance "type_ref".toList
  let p₃ : Place := p₂.next '('
  let p₄ : Place := ((p₃.next '"').advance name).next '"'
  let p₅ : Place := p₄.next ')'
  refine ⟨p₁, p₂, p₃, p₄, p₅, ?_⟩
  have h₁ : Lexer.readWord true ⟨p₁, "type_ref".toList ++ ('(' :: '"' :: (name ++ "\")".toList))⟩ =
      (⟨.name "type_ref", p₁⟩, ⟨p₂, '(' :: '"' :: (name ++ "\")".toList)⟩) := by
    have hkeyword : keywords.contains "type_ref" = false := by decide +kernel
    have hreserved : reservedWords.contains "type_ref" = false := by decide +kernel
    have hform : isName "type_ref" = true := by decide +kernel
    have htoken : Lexer.nameToken (String.ofList "type_ref".toList) = .name "type_ref" := by
      rw [String.ofList_toList, Lexer.nameToken, hkeyword, hreserved, hform]
      rfl
    show (⟨⟨Lexer.nameToken (String.ofList "type_ref".toList), p₁⟩, _⟩ : Lexeme × Cursor) = _
    rw [htoken]
    rfl
  have h₂ : Lexer.readWord false ⟨p₂, '(' :: '"' :: (name ++ "\")".toList)⟩ =
      (⟨.sign "(", p₂⟩, ⟨p₃, '"' :: (name ++ "\")".toList)⟩) := rfl
  have h₃ : Lexer.readWord true ⟨p₃, '"' :: (name ++ "\")".toList)⟩ =
      (⟨.string (String.ofList name), p₃⟩, ⟨p₄, [')']⟩) := by
    show Lexer.stringWord p₃ _ (Lexer.readString false '"' p₃ (p₃.next '"') (name ++ '"' :: ')' :: [])) = _
    rw [readString_name hname]
    rfl
  have h₄ : Lexer.readWord false ⟨p₄, [')']⟩ = (⟨.sign ")", p₄⟩, ⟨p₅, []⟩) := rfl
  have n₁ : (Token.name "type_ref").precedesNumber = false := rfl
  have n₂ : (Token.sign "(").precedesNumber = true := by decide +kernel
  have n₃ : (Token.string (String.ofList name)).precedesNumber = false := rfl
  have n₄ : (Token.sign ")").precedesNumber = false := by decide +kernel
  rw [Lexer.words, htext]
  show Lexer.wordsFrom true [] ⟨p₁, "type_ref".toList ++ ('(' :: '"' :: (name ++ "\")".toList))⟩ = _
  rw [wordsFrom_of_word rfl h₁ rfl (by simp) n₁, wordsFrom_of_word rfl h₂ rfl (by simp) n₂]
  rw [wordsFrom_of_word rfl h₃ rfl (by simp) n₃, wordsFrom_of_word rfl h₄ rfl (by simp) n₄, wordsFrom_end]

/-! ## Section 2 - syntax -/

theorem parse_typeRefCall {name : List Char} (hname : ∀ c ∈ name, isIdentPart c = true) {text : String}
    (htext : text.toList = typeRefCall name) :
    ∃ p q, Expr.parse text = .ok (.call p "type_ref" [.literal q (.string (String.ofList name))]) := by
  obtain ⟨p₁, p₂, p₃, p₄, p₅, hwords⟩ := words_typeRefCall hname htext
  refine ⟨p₁, p₃, ?_⟩
  -- Once the words are known, the grammar computes, whatever the name and the places are.
  rw [Expr.parse, hwords]
  rfl

/-! ## Section 3 - value -/

/-- A call with one string written out gives what the host function replies, or raises what it refuses with. -/
theorem evaluate_call {engine : Engine} {f : HostFunction} {name : String}
    (hf : Engine.function? engine name [.string] = some f) (p q : Place) (s : String) :
    Expr.evaluate engine (.call p name [.literal q (.string s)]) =
      ⟨(f.run [.string s]).result.mapError fun text => .raised (.refused text) p,
        (f.run [.string s]).printed⟩ := by
  rcases hreply : f.run [.string s] with ⟨r, lines⟩
  let outcome : Except Exit Value := r.mapError fun text => .fault (.raised (.refused text) p)
  have hhost : (callHost f [.string s] p).run {} = (outcome, { printed := lines }) := by
    unfold callHost
    rw [hreply]
    cases r <;> rfl
  have hcall : ∀ recurse, (callNamed ⟨engine, .empty⟩ recurse p name [.string s]).run {} =
      (outcome, { printed := lines }) := by
    intro recurse
    have hown : Program.empty.function? name [Value.string s].length = none := rfl
    have hkinds : Engine.function? engine name ([Value.string s].map Value.kind) = some f := hf
    unfold callNamed
    simp only [hown, hkinds]
    exact hhost
  -- The call and its argument use up two levels of the measure.
  have hrun : (run ⟨engine, .empty⟩ runMeasure (.expr (.call p name [.literal q (.string s)]))).run {} =
      (outcome, { printed := lines }) := by
    rw [show runMeasure = 9999998 + 1 + 1 from rfl]
    exact hcall (run ⟨engine, .empty⟩ (9999998 + 1))
  rw [Expr.evaluate, hrun]
  cases r <;> rfl

end HotReload.Body

namespace HotReload.Compiler

open Body Scan

/-! ## Section 4 - the reflection of a compiler -/

/-- No module hides the reflection from expressions. -/
def Reflects (c : Compiler) : Prop := ∀ m ∈ c.modules, m.function? "type_ref" [.string] = none

/-- What the reflection replies to a name. -/
def reply (c : Compiler) (name : String) : Except String Value :=
  match c.lookup name with
  | some ref => .ok (.typeRef ref)
  | none => .error s!"type '{name}' is not defined"

theorem function?_reflection (c : Compiler) :
    ∃ f, c.reflection.function? "type_ref" [.string] = some f ∧ ∀ name, f.run [.string name] = ⟨c.reply name, []⟩ := by
  refine ⟨c.reflection.functions.head (by simp [Compiler.reflection]), ?_, ?_⟩
  · simp [HostModule.function?, Compiler.reflection]
  · intro name
    unfold reply
    rcases href : c.lookup name with _ | ref <;> simp [Compiler.reflection, href]

theorem function?_engine {c : Compiler} (h : c.Reflects) :
    ∃ f, Engine.function? c.engine "type_ref" [.string] = some f ∧
      ∀ name, f.run [.string name] = ⟨c.reply name, []⟩ := by
  have hnone : c.modules.reverse.findSome? (fun m => m.function? "type_ref" [.string]) = none :=
    List.findSome?_eq_none_iff.2 fun m hm => h m (List.mem_reverse.1 hm)
  obtain ⟨f, hf, hreply⟩ := c.function?_reflection
  refine ⟨f, ?_, hreply⟩
  rw [Engine.function?, Compiler.engine, List.reverse_cons, List.findSome?_append, hnone]
  simpa using hf

/-- An expression that asks for a name gives what the reflection replies, and prints nothing. -/
theorem evaluate_reflection {c : Compiler} (h : c.Reflects) (p q : Place) (name : String) :
    Expr.evaluate c.engine (.call p "type_ref" [.literal q (.string name)]) =
      ⟨(c.reply name).mapError fun text => .raised (.refused text) p, []⟩ := by
  obtain ⟨f, hf, hreply⟩ := function?_engine h
  rw [evaluate_call hf, hreply]

/-- An expression that asks for a name gives the type that the name stands for, and prints nothing. -/
theorem evaluate_typeRefCall {c : Compiler} (h : c.Reflects) {name : List Char}
    (hname : ∀ x ∈ name, isIdentPart x = true) {ref : TypeRef} (href : c.lookup (String.ofList name) = some ref)
    {text : String} (htext : text.toList = typeRefCall name) : c.evaluate text = (.ok (.typeRef ref), []) := by
  obtain ⟨p, q, hparse⟩ := parse_typeRefCall hname htext
  unfold evaluate
  rw [hparse]
  dsimp only
  rw [evaluate_reflection h, reply, href]
  rfl

/-! ## Section 5 - modules of its own -/

/-- What a module offers under the signature of the reflection, if it does, gives no types. -/
def Unforged (c : Compiler) : Prop :=
  ∀ m ∈ c.modules, ∀ f, m.function? "type_ref" [.string] = some f →
    ∀ name ref, (f.run [.string name]).result ≠ .ok (.typeRef ref)

/-- So an expression that asks for a name and gets a type has reached the reflection itself. -/
theorem reflects_of_typeRef {c : Compiler} (h : c.Unforged) {name : List Char}
    (hname : ∀ x ∈ name, isIdentPart x = true) {text : String} (htext : text.toList = typeRefCall name)
    {ref : TypeRef} (href : (c.evaluate text).1 = .ok (.typeRef ref)) : c.Reflects := by
  intro m hm
  cases hf : m.function? "type_ref" [.string] with
  | none => rfl
  | some f =>
    exfalso
    -- The function that is reached is one of some module, though it may not be this one.
    obtain ⟨g, hg⟩ : ∃ g, c.modules.reverse.findSome? (fun m => m.function? "type_ref" [.string]) = some g := by
      rw [← Option.isSome_iff_exists, List.findSome?_isSome_iff]
      exact ⟨m, List.mem_reverse.2 hm, by rw [hf]; rfl⟩
    obtain ⟨m', hm', hg'⟩ := List.exists_of_findSome?_eq_some hg
    have hreached : Engine.function? c.engine "type_ref" [.string] = some g := by
      rw [Engine.function?, Compiler.engine, List.reverse_cons, List.findSome?_append, hg]
      rfl
    have hnot := h m' (List.mem_reverse.1 hm') g hg' (String.ofList name) ref
    obtain ⟨p, q, hparse⟩ := parse_typeRefCall hname htext
    unfold evaluate at href
    rw [hparse] at href
    dsimp only at href
    rw [evaluate_call hreached] at href
    cases hresult : (g.run [.string (String.ofList name)]).result with
    | error text =>
      rw [hresult] at href
      cases href
    | ok v =>
      rw [hresult] at href hnot
      exact hnot href

end HotReload.Compiler
