import HotReload.Unit.Declaration

/-! # Reading a unit

`scan` splits a text into its declarations. The readers below work on a `Cursor`, and each returns the
cursor after what it has read, so that places come from one rule. Comments and literals are told apart by a
`Mode`; the reader of trivia and the reader of bodies share it.

* `readTrivia` skips blanks and comments between the parts of a declaration.
* `readBody` reads up to the brace that closes more than has been opened.
* `readDeclaration?` reads one declaration, and `scan` all of them.
-/

namespace HotReload.Scan

/-! ## Section 1 - trivia -/

/-- What the reader is inside of. -/
inductive Mode where
  | code
  | lineComment
  /-- A block comment that began at a place, with the comments still open in it. -/
  | blockComment (opened : Place) (depth : Nat)
  /-- A string that began at a place, with the quote that ends it. -/
  | string (opened : Place) (quote : Char)
  deriving DecidableEq, Repr, Inhabited

/-- Skips blanks, line comments and nested block comments. -/
def readTrivia : Mode → Place → List Char → Except ScanFault Cursor
  | .blockComment opened _, _, [] => .error (.openComment opened)
  | _, p, [] => .ok ⟨p, []⟩
  | .blockComment opened depth, p, '/' :: '*' :: cs =>
    readTrivia (.blockComment opened (depth + 1)) ((p.next '/').next '*') cs
  -- comments nest, so only the end of the outermost leads back to the code
  | .blockComment opened depth, p, '*' :: '/' :: cs =>
    readTrivia (if depth ≤ 1 then .code else .blockComment opened (depth - 1)) ((p.next '*').next '/') cs
  | .blockComment opened depth, p, c :: cs => readTrivia (.blockComment opened depth) (p.next c) cs
  | .lineComment, p, c :: cs => readTrivia (if c = '\n' then .code else .lineComment) (p.next c) cs
  | _, p, '/' :: '/' :: cs => readTrivia .lineComment ((p.next '/').next '/') cs
  | _, p, '/' :: '*' :: cs => readTrivia (.blockComment p 1) ((p.next '/').next '*') cs
  | _, p, c :: cs => if isBlank c then readTrivia .code (p.next c) cs else .ok ⟨p, c :: cs⟩

/-- Skips the trivia at a cursor. -/
def trivia (c : Cursor) : Except ScanFault Cursor := readTrivia .code c.place c.rest

theorem readTrivia_reads {m : Mode} {p : Place} {cs : List Char} {c : Cursor}
    (h : readTrivia m p cs = .ok c) : ∃ text, Cursor.Reads ⟨p, cs⟩ text c := by
  fun_induction readTrivia m p cs with
  | case1 => simp at h
  | case2 => exact ⟨[], by simp at h; subst h; exact .refl _⟩
  | case9 =>
    obtain ⟨t, ht⟩ := by rename_i ih; exact ih h
    exact ⟨_, ht.cons⟩
  | case10 => exact ⟨[], by simp at h; subst h; exact .refl _⟩
  | case5 | case6 =>
    obtain ⟨t, ht⟩ := by rename_i ih; exact ih h
    exact ⟨_, ht.cons⟩
  | _ =>
    obtain ⟨t, ht⟩ := by rename_i ih; exact ih h
    exact ⟨_, ht.cons.cons⟩

theorem trivia_reads {c d : Cursor} (h : trivia c = .ok d) : ∃ text, c.Reads text d :=
  readTrivia_reads h

/-! ## Section 2 - identifiers -/

/-- The identifier at a cursor, if one begins there, with the cursor after it. -/
def ident? (c : Cursor) : Option (String × Cursor) :=
  match c.rest with
  | [] => none
  | x :: _ =>
    if isIdentStart x then
      let word := c.rest.takeWhile isIdentPart
      some (String.ofList word, ⟨c.place.advance word, c.rest.dropWhile isIdentPart⟩)
    else none

theorem ident?_reads {c d : Cursor} {word : String} (h : ident? c = some (word, d)) :
    c.Reads word.toList d ∧ word.toList ≠ [] := by
  obtain ⟨p, cs⟩ := c
  cases cs with
  | nil => simp [ident?] at h
  | cons x xs =>
    simp only [ident?] at h
    split at h
    · rename_i hx
      have hp : isIdentPart x = true := by
        simp only [isIdentStart, isIdentPart, Bool.or_eq_true, decide_eq_true_eq] at hx ⊢
        rcases hx with hx | hx
        · exact .inl (by simp [Char.isAlphanum, hx])
        · exact .inr hx
      simp only [Option.some.injEq, Prod.mk.injEq] at h
      obtain ⟨rfl, rfl⟩ := h
      exact ⟨⟨by simp, by simp⟩, by simp [hp]⟩
    · simp at h

/-! ## Section 3 - bodies -/

/-- Reads a body with `depth` braces open inside it, and returns its text with the cursor after the
closing brace. A character literal is a quote, an optional backslash, one character, and a quote if
one follows. `none` means that the text ended in the body itself, and a fault that it ended in a comment or a string. -/
def readBody : Mode → Nat → Place → List Char → Except ScanFault (Option (List Char × Cursor))
  | .blockComment opened _, _, _, [] => .error (.openComment opened)
  | .string opened _, _, _, [] => .error (.openString opened)
  | _, _, _, [] => .ok none
  | .blockComment opened d, depth, p, '/' :: '*' :: cs =>
    keep ['/', '*'] <| readBody (.blockComment opened (d + 1)) depth ((p.next '/').next '*') cs
  | .blockComment opened d, depth, p, '*' :: '/' :: cs =>
    keep ['*', '/'] <|
      readBody (if d ≤ 1 then .code else .blockComment opened (d - 1)) depth ((p.next '*').next '/') cs
  | .blockComment opened d, depth, p, c :: cs =>
    keep [c] <| readBody (.blockComment opened d) depth (p.next c) cs
  | .lineComment, depth, p, c :: cs =>
    keep [c] <| readBody (if c = '\n' then .code else .lineComment) depth (p.next c) cs
  | .string opened quote, depth, p, '\\' :: c :: cs =>
    keep ['\\', c] <| readBody (.string opened quote) depth ((p.next '\\').next c) cs
  | .string opened quote, depth, p, c :: cs =>
    keep [c] <| readBody (if c = quote then .code else .string opened quote) depth (p.next c) cs
  | .code, depth, p, '/' :: '/' :: cs =>
    keep ['/', '/'] <| readBody .lineComment depth ((p.next '/').next '/') cs
  | .code, depth, p, '/' :: '*' :: cs =>
    keep ['/', '*'] <| readBody (.blockComment p 1) depth ((p.next '/').next '*') cs
  -- a character literal is passed over as a whole, since it may hold a quote or a brace
  | .code, depth, p, '\'' :: '\\' :: c :: '\'' :: cs =>
    keep ['\'', '\\', c, '\''] <|
      readBody .code depth ((((p.next '\'').next '\\').next c).next '\'') cs
  | .code, depth, p, '\'' :: '\\' :: c :: cs =>
    keep ['\'', '\\', c] <| readBody .code depth (((p.next '\'').next '\\').next c) cs
  | .code, depth, p, '\'' :: c :: '\'' :: cs =>
    keep ['\'', c, '\''] <| readBody .code depth (((p.next '\'').next c).next '\'') cs
  | .code, depth, p, '\'' :: c :: cs =>
    keep ['\'', c] <| readBody .code depth ((p.next '\'').next c) cs
  -- braces count in code only
  | .code, depth, p, '{' :: cs => keep ['{'] <| readBody .code (depth + 1) (p.next '{') cs
  | .code, 0, p, '}' :: cs => .ok (some ([], ⟨p.next '}', cs⟩))
  | .code, depth + 1, p, '}' :: cs => keep ['}'] <| readBody .code depth (p.next '}') cs
  | .code, depth, p, c :: cs =>
    keep [c] <| readBody (if c = '"' ∨ c = '`' then .string p c else .code) depth (p.next c) cs
where
  /-- Puts characters that have been read in front of the rest of the body. -/
  keep (read : List Char) :
      Except ScanFault (Option (List Char × Cursor)) → Except ScanFault (Option (List Char × Cursor))
    | .ok (some (body, c)) => .ok (some (read ++ body, c))
    | r => r

theorem keep_eq_ok_some {read body : List Char} {c : Cursor}
    {r : Except ScanFault (Option (List Char × Cursor))} :
    readBody.keep read r = .ok (some (body, c)) ↔ ∃ b, r = .ok (some (b, c)) ∧ body = read ++ b := by
  unfold readBody.keep
  split
  · simp only [Except.ok.injEq, Option.some.injEq, Prod.mk.injEq]
    constructor
    · rintro ⟨rfl, rfl⟩
      exact ⟨_, ⟨rfl, rfl⟩, rfl⟩
    · rintro ⟨_, ⟨rfl, rfl⟩, rfl⟩
      exact ⟨rfl, rfl⟩
  · rename_i hr
    constructor
    · intro h
      exact absurd h (hr _ _)
    · rintro ⟨b, h, -⟩
      exact absurd h (hr _ _)

theorem readBody_reads {m : Mode} {depth : Nat} {p : Place} {cs body : List Char} {c : Cursor}
    (h : readBody m depth p cs = .ok (some (body, c))) : Cursor.Reads ⟨p, cs⟩ (body ++ ['}']) c := by
  fun_induction readBody m depth p cs generalizing body c with
  | case1 | case2 | case3 => simp at h
  | case17 =>
    simp only [Except.ok.injEq, Option.some.injEq, Prod.mk.injEq] at h
    obtain ⟨rfl, rfl⟩ := h
    exact ⟨rfl, rfl⟩
  | _ =>
    obtain ⟨b, hb, rfl⟩ := keep_eq_ok_some.1 h
    have := by rename_i ih; exact ih hb
    exact this.run rfl rfl

/-! ## Section 4 - declarations -/

/-- The base of a declaration, if a colon announces one, with the cursor at the body. -/
def readBase (name : String) (c : Cursor) : Except ScanFault (Option String × Cursor) :=
  match c.rest with
  | ':' :: cs => do
    let c ← trivia ⟨c.place.next ':', cs⟩
    match ident? c with
    | none => .error (.missingBase c.place name)
    | some (base, c) => return (some base, ← trivia c)
  | _ => .ok (none, c)

/-- Reads one declaration, which begins at the cursor. -/
def readDeclaration (c : Cursor) (first : Char) : Except ScanFault (Declaration × Cursor) :=
  match ident? c with
  | none => .error (.stray c.place first)
  | some (word, afterWord) =>
    if word ≠ "class" then .error (.notKeyword c.place word)
    else do
      let atName ← trivia afterWord
      match ident? atName with
      | none => .error (.missingName atName.place)
      | some (name, afterName) =>
        let (base, opening) ← readBase name (← trivia afterName)
        match opening.rest with
        | '{' :: cs =>
          let bodyPlace := opening.place.next '{'
          match ← readBody .code 0 bodyPlace cs with
          | none => .error (.openBody opening.place name)
          | some (body, after) => .ok (⟨name, base, String.ofList body, c.place, bodyPlace⟩, after)
        | _ => .error (.missingBody opening.place name)

theorem readBase_reads {name : String} {c d : Cursor} {base : Option String}
    (h : readBase name c = .ok (base, d)) : ∃ text, c.Reads text d := by
  obtain ⟨p, cs⟩ := c
  unfold readBase at h
  -- with a colon the base is read between two runs of trivia, and without one nothing is
  split at h
  · rename_i cs' hcs
    subst hcs
    cases h₁ : trivia ⟨p.next ':', cs'⟩ with
    | error e => simp [h₁, bind, Except.bind] at h
    | ok c₁ =>
      simp only [h₁, bind, Except.bind] at h
      split at h
      · simp at h
      · rename_i word c₂ hw
        cases h₂ : trivia c₂ with
        | error e => simp [h₂] at h
        | ok c₃ =>
          simp only [h₂, pure, Except.pure, Except.ok.injEq, Prod.mk.injEq] at h
          obtain ⟨rfl, rfl⟩ := h
          obtain ⟨a, ha⟩ := trivia_reads h₁
          obtain ⟨b, hb⟩ := trivia_reads h₂
          exact ⟨_, (ha.trans ((ident?_reads hw).1.trans hb)).cons⟩
  · simp only [Except.ok.injEq, Prod.mk.injEq] at h
    obtain ⟨rfl, rfl⟩ := h
    exact ⟨[], .refl _⟩

theorem readDeclaration_reads {c d : Cursor} {first : Char} {decl : Declaration}
    (h : readDeclaration c first = .ok (decl, d)) : ∃ text, text ≠ [] ∧ c.Reads text d := by
  unfold readDeclaration at h
  split at h
  · simp at h
  · rename_i word afterWord hword
    split at h
    · simp at h
    · cases h₁ : trivia afterWord with
      | error e => simp [h₁, bind, Except.bind] at h
      | ok c₁ =>
        simp only [h₁, bind, Except.bind] at h
        split at h
        · simp at h
        · rename_i name c₂ hname
          cases h₂ : trivia c₂ with
          | error e => simp [h₂] at h
          | ok c₃ =>
            simp only [h₂] at h
            cases h₃ : readBase name c₃ with
            | error e => simp [h₃] at h
            | ok r =>
              obtain ⟨base, c₄⟩ := r
              simp only [h₃] at h
              split at h
              · rename_i cs hcs
                split at h
                · simp at h
                · rename_i o ho
                  split at h
                  · simp at h
                  · rename_i body after
                    simp only [Except.ok.injEq, Prod.mk.injEq] at h
                    obtain ⟨-, rfl⟩ := h
                    obtain ⟨a₁, k₁⟩ := trivia_reads h₁
                    obtain ⟨a₂, k₂⟩ := trivia_reads h₂
                    obtain ⟨a₃, k₃⟩ := readBase_reads h₃
                    have k₄ : c₄.Reads ('{' :: (body ++ ['}'])) after := by
                      obtain ⟨p, xs⟩ := c₄
                      simp only at hcs ho
                      subst hcs
                      exact (readBody_reads ho).cons
                    -- the parts of the declaration, in the order in which they were read
                    have k := (ident?_reads hword).1.trans
                      (k₁.trans ((ident?_reads hname).1.trans (k₂.trans (k₃.trans k₄))))
                    exact ⟨_, by simp, k⟩
              · simp at h

/-! ## Section 5 - units -/

/-- Reads declarations until the text ends. -/
def readUnit (c : Cursor) : Except ScanFault (List Declaration) :=
  match _hstart : trivia c with
  | .error fault => .error fault
  | .ok start =>
    match start.rest with
    | [] => .ok []
    | first :: _ =>
      match _hdecl : readDeclaration start first with
      | .error fault => .error fault
      | .ok (d, after) => (d :: ·) <$> readUnit after
termination_by c.rest.length
decreasing_by
  -- a declaration takes at least its keyword from the text
  obtain ⟨_, hne, k⟩ := readDeclaration_reads _hdecl
  obtain ⟨_, k'⟩ := trivia_reads _hstart
  exact Nat.lt_of_lt_of_le (k.length_lt hne) k'.length_le

end HotReload.Scan

namespace HotReload

/-- The declarations of a unit, in order, or why the text is no unit. -/
def scan (unit : String) : Except ScanFault (List Declaration) :=
  Scan.readUnit (.ofText unit.toList)

end HotReload
