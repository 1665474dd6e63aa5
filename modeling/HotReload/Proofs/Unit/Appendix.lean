import HotReload.Proofs.Unit.Reading

/-! # Appendix: a declaration behind a unit

    A declaration that is appended to a unit, on a line of its own, is read as the last
    declaration of it, or the unit was none before.  Nothing in front can swallow it: a
    comment or a literal that is still open at the end of the unit stays open, because
    the appended line closes none, and a declaration that is cut off finds a word where
    it needs a brace.

    The readers are gone through one by one.  Each lemma says what a reader gives on the
    longer text in terms of what it gives on the unit alone. -/

namespace HotReload.Scan

/-! ## Section 1 - text that closes nothing -/

/-- A text that closes no comment, no literal and no brace, and that begins with no blank. -/
structure Quiet (U : List Char) : Prop where
  slash : '/' ∉ U
  backslash : '\\' ∉ U
  quote : '\'' ∉ U
  doubleQuote : '"' ∉ U
  backQuote : '`' ∉ U
  stops : ∀ p, readTrivia .code p U = .ok ⟨p, U⟩
  balanced : ∀ depth p, readBody .code depth p U = .ok none

theorem readTrivia_openComment {opened : Place} {cs : List Char} (h : '/' ∉ cs) (d : Nat) (p : Place) :
    readTrivia (.blockComment opened d) p cs = .error (.openComment opened) := by
  induction cs generalizing p with
  | nil => rfl
  | cons c cs ih =>
    simp only [List.mem_cons, not_or] at h
    rw [readTrivia]
    · exact ih h.2 _
    · rintro rest rfl
      exact absurd rfl h.1
    · rintro rest rfl rfl
      simp at h

theorem readBody_openComment {opened : Place} {cs : List Char} (h : '/' ∉ cs) (d depth : Nat) (p : Place) :
    readBody (.blockComment opened d) depth p cs = .error (.openComment opened) := by
  induction cs generalizing p with
  | nil => rfl
  | cons c cs ih =>
    simp only [List.mem_cons, not_or] at h
    rw [readBody, ih h.2]
    · rfl
    · rintro rest rfl
      exact absurd rfl h.1
    · rintro rest rfl rfl
      simp at h

theorem readBody_openString {opened : Place} {quote : Char} {cs : List Char} (hslash : '\\' ∉ cs)
    (hquote : quote ∉ cs) (depth : Nat) (p : Place) :
    readBody (.string opened quote) depth p cs = .error (.openString opened) := by
  induction cs generalizing p with
  | nil => rfl
  | cons c cs ih =>
    simp only [List.mem_cons, not_or] at hslash hquote
    rw [readBody, if_neg (Ne.symm hquote.1), ih hslash.2 hquote.2]
    · rfl
    · rintro d rest rfl
      exact absurd rfl hslash.1

/-- Plain characters in front change nothing about a text that leaves the body open. -/
theorem readBody_plain_append {depth : Nat} {text rest : List Char} (htext : ∀ c ∈ text, isPlain c = true)
    (hrest : ∀ p, readBody .code depth p rest = .ok none) (p : Place) :
    readBody .code depth p (text ++ rest) = .ok none := by
  induction text generalizing p with
  | nil => exact hrest p
  | cons c cs ih =>
    rw [List.cons_append, readBody_plain (htext c List.mem_cons_self),
      ih fun x hx => htext x (List.mem_cons_of_mem c hx)]
    rfl

/-! ## Section 2 - trivia -/

/-- A cursor, with a line behind the rest of the text. -/
def further (U : List Char) (c : Cursor) : Cursor := ⟨c.place, c.rest ++ '\n' :: U⟩

/-- Where trivia end when a line follows a text in which they ended at a cursor. -/
def beyond (U : List Char) (c : Cursor) : Cursor :=
  if c.rest = [] then ⟨c.place.next '\n', U⟩ else further U c

/-- A line end is no second half of a mark that consists of two characters. -/
theorem noMark_append {c x y : Char} {cs U : List Char} (hy : y ≠ '\n')
    (h : ∀ rest, c = x → cs = y :: rest → False) :
    ∀ rest, c = x → cs ++ '\n' :: U = y :: rest → False := by
  rintro rest hc heq
  cases cs with
  | nil => exact hy (by simpa using (List.cons.inj heq).1.symm)
  | cons z zs => exact h zs hc (by rw [(List.cons.inj heq).1])

theorem readTrivia_append {U : List Char} (hU : Quiet U) (m : Mode) (p : Place) (cs : List Char) :
    readTrivia m p (cs ++ '\n' :: U) = (readTrivia m p cs).map (beyond U) := by
  have hblank : isBlank '\n' = true := by decide
  fun_induction readTrivia m p cs with
  | case1 opened depth p => exact readTrivia_openComment (by simp [hU.slash]) depth p
  | case2 m p hm =>
    show readTrivia m p ('\n' :: U) = .ok (beyond U ⟨p, []⟩)
    cases m with
    | code => rw [readTrivia, if_pos hblank, hU.stops] <;> simp [beyond]
    | string o q => rw [readTrivia, if_pos hblank, hU.stops] <;> simp [beyond]
    | lineComment => rw [readTrivia, if_pos rfl, hU.stops]; rfl
    | blockComment o d => exact absurd rfl (hm o d)
  | case3 opened depth p cs ih => rw [← ih]; rfl
  | case4 opened depth p cs ih => rw [← ih]; rfl
  | case5 opened depth p c cs h1 h2 ih =>
    rw [← ih, List.cons_append, readTrivia]
    · exact noMark_append (by decide) h1
    · exact noMark_append (by decide) h2
  | case6 p c cs ih => rw [← ih]; rfl
  | case7 m p cs h1 h2 ih =>
    rw [← ih, List.cons_append, List.cons_append, readTrivia] <;> assumption
  | case8 m p cs h1 h2 ih =>
    rw [← ih, List.cons_append, List.cons_append, readTrivia] <;> assumption
  | case9 m p c cs h1 h2 h3 h4 h5 h6 hc ih =>
    rw [← ih, List.cons_append, readTrivia, if_pos hc]
    · exact noMark_append (by decide) h5
    · exact noMark_append (by decide) h6
    · exact fun o d _ hm => (h3 o d hm).elim
    · exact fun o d _ hm => (h3 o d hm).elim
    · exact h3
    · exact h4
  | case10 m p c cs h1 h2 h3 h4 h5 h6 hc =>
    rw [List.cons_append, readTrivia, if_neg hc]
    · simp [Except.map, beyond, further]
    · exact noMark_append (by decide) h5
    · exact noMark_append (by decide) h6
    · exact fun o d _ hm => (h3 o d hm).elim
    · exact fun o d _ hm => (h3 o d hm).elim
    · exact h3
    · exact h4

/-! ## Section 3 - bodies -/

/-- What is read of a body when a line follows the text. -/
def reach (U : List Char) : Option (List Char × Cursor) → Option (List Char × Cursor) :=
  Option.map fun (body, c) => (body, further U c)

theorem keep_reach (U read : List Char) (r : Except ScanFault (Option (List Char × Cursor))) :
    readBody.keep read (r.map (reach U)) = (readBody.keep read r).map (reach U) := by
  rcases r with fault | _ | ⟨body, c⟩ <;> rfl

/-- The mark of a string is not in a text that closes none. -/
theorem Quiet.mark {U : List Char} (hU : Quiet U) {q : Char} (hq : q = '"' ∨ q = '`') : q ∉ U := by
  rcases hq with rfl | rfl
  · exact hU.doubleQuote
  · exact hU.backQuote

section cuts
variable {U : List Char} (hU : Quiet U) (depth : Nat) (p : Place)
include hU

/-- The text ends in code. -/
theorem readBody_cut_code : readBody .code depth p ('\n' :: U) = .ok none := by
  rw [readBody_plain (by decide), hU.balanced]
  rfl

/-- The text ends in a line comment, which the line end closes. -/
theorem readBody_cut_line : readBody .lineComment depth p ('\n' :: U) = .ok none := by
  show readBody.keep ['\n'] (readBody .code depth (p.next '\n') U) = .ok none
  rw [hU.balanced]
  rfl

/-- The text ends in a string. -/
theorem readBody_cut_string (o : Place) {q : Char} (hq : q = '"' ∨ q = '`') :
    readBody (.string o q) depth p ('\n' :: U) = .error (.openString o) := by
  refine readBody_openString (by simp [hU.backslash]) ?_ depth p
  have hline : q ≠ '\n' := by rcases hq with rfl | rfl <;> decide
  exact List.not_mem_cons_of_ne_of_not_mem hline (hU.mark hq)

/-- The text ends in a string, with a backslash, which hides the line end. -/
theorem readBody_cut_hidden (o : Place) {q : Char} (hq : q = '"' ∨ q = '`') :
    readBody (.string o q) depth p ('\\' :: '\n' :: U) = .error (.openString o) := by
  show readBody.keep ['\\', '\n'] (readBody (.string o q) depth _ U) = .error (.openString o)
  rw [readBody_openString hU.backslash (hU.mark hq)]
  rfl

/-- The line end is taken for the character of a literal, and no quote follows. -/
theorem readBody_cut_literal : readBody .code depth p ('\'' :: '\n' :: U) = .ok none := by
  rw [readBody, hU.balanced]
  · rfl
  · exact fun _ _ h => absurd h (by decide)
  · exact fun _ _ h => absurd h (by decide)
  · rintro rest rfl
    exact hU.quote List.mem_cons_self

/-- The same behind a backslash. -/
theorem readBody_cut_escape : readBody .code depth p ('\'' :: '\\' :: '\n' :: U) = .ok none := by
  rw [readBody, hU.balanced]
  · rfl
  · rintro rest rfl
    exact hU.quote List.mem_cons_self

end cuts

/-- A body that ends in the text is read there as without the line behind it.  Only where the text breaks off inside
    of something does the line matter, and then it closes nothing. -/
theorem readBody_append {U : List Char} (hU : Quiet U) (m : Mode) (depth : Nat) (p : Place) (cs : List Char)
    (hmode : ∀ o q, m = .string o q → q = '"' ∨ q = '`') :
    readBody m depth p (cs ++ '\n' :: U) = (readBody m depth p cs).map (reach U) := by
  -- One case for each clause of the reader.  A clause that needs more characters than are left in the text is the
  -- one place where the line could be taken for a part of the body.
  fun_induction readBody m depth p cs with
  | case1 o d depth p => exact readBody_openComment (by simp [hU.slash]) d depth p
  | case2 o q depth p => exact readBody_cut_string hU depth p o (hmode o q rfl)
  | case3 m depth p hb hs =>
    cases m with
    | code => exact readBody_cut_code hU depth p
    | lineComment => exact readBody_cut_line hU depth p
    | blockComment o d => exact absurd rfl (hb o d)
    | string o q => exact absurd rfl (hs o q)
  | case4 o d depth p cs ih => rw [← keep_reach, ← ih (by simp)]; rfl
  | case5 o d depth p cs ih => rw [← keep_reach, ← ih (by split <;> simp)]; rfl
  | case6 o d depth p c cs h1 h2 ih =>
    rw [← keep_reach, ← ih (by simp), List.cons_append, readBody]
    · exact noMark_append (by decide) h1
    · exact noMark_append (by decide) h2
  | case7 depth p c cs ih => rw [← keep_reach, ← ih (by split <;> simp)]; rfl
  | case8 o q depth p c cs ih => rw [← keep_reach, ← ih hmode]; rfl
  | case9 o q depth p c cs h ih =>
    have hq : q = '"' ∨ q = '`' := hmode o q rfl
    by_cases hc : c = '\\' ∧ cs = []
    · obtain ⟨rfl, rfl⟩ := hc
      have hne : '\\' ≠ q := by rcases hq with rfl | rfl <;> decide
      rw [if_neg hne]
      exact readBody_cut_hidden hU depth p o hq
    · have hnext : ∀ o' q', (if c = q then Mode.code else .string o q) = .string o' q' →
          q' = '"' ∨ q' = '`' := by
        intro o' q' hm
        split at hm <;> cases hm
        exact hq
      rw [← keep_reach, ← ih hnext, List.cons_append, readBody]
      rintro d rest rfl heq
      cases cs with
      | nil => exact hc ⟨rfl, rfl⟩
      | cons y ys => exact h y ys rfl rfl
  | case10 depth p cs ih => rw [← keep_reach, ← ih (by simp)]; rfl
  | case11 depth p cs ih => rw [← keep_reach, ← ih (by simp)]; rfl
  | case12 depth p c cs ih => rw [← keep_reach, ← ih (by simp)]; rfl
  | case13 depth p c cs h ih =>
    rw [← keep_reach, ← ih (by simp)]
    simp only [List.cons_append]
    rw [readBody]
    exact fun rest => noMark_append (x := c) (y := '\'') (by decide) (fun rest _ => h rest) rest rfl
  | case14 depth p c cs h1 h2 ih =>
    rw [← keep_reach, ← ih (by simp)]
    simp only [List.cons_append]
    rw [readBody]
    · exact fun rest hc => absurd hc h2
    · exact h2
  | case15 depth p c cs h1 h2 h3 ih =>
    by_cases hc : c = '\\'
    · subst hc
      obtain rfl : cs = [] := by
        cases cs with
        | nil => rfl
        | cons y ys => exact (h2 y ys rfl rfl).elim
      exact readBody_cut_escape hU depth p
    · rw [← keep_reach, ← ih (by simp)]
      simp only [List.cons_append]
      rw [readBody]
      · exact fun _ _ h => (hc h).elim
      · exact fun _ _ h => (hc h).elim
      · exact fun rest => noMark_append (x := c) (y := '\'') (by decide) (fun rest _ => h3 rest) rest rfl
  | case16 depth p cs ih => rw [← keep_reach, ← ih (by simp)]; rfl
  | case17 p cs => rfl
  | case18 depth p cs ih => rw [← keep_reach, ← ih (by simp)]; rfl
  | case19 depth p c cs h1 h2 h3 h4 h5 h6 h7 h8 h9 ih =>
    by_cases hc : c = '\''
    · subst hc
      obtain rfl : cs = [] := by
        cases cs with
        | nil => rfl
        | cons y ys => exact (h6 y ys rfl rfl).elim
      exact readBody_cut_literal hU depth p
    · have hnext : ∀ o q, (if c = '"' ∨ c = '`' then Mode.string p c else .code) = .string o q →
          q = '"' ∨ q = '`' := by
        intro o q hm
        split at hm
        · rename_i hquote
          cases hm
          exact hquote
        · cases hm
      rw [← keep_reach, ← ih hnext, List.cons_append, readBody]
      · exact noMark_append (by decide) h1
      · exact noMark_append (by decide) h2
      · exact fun _ _ h => (hc h).elim
      · exact fun _ _ h => (hc h).elim
      · exact fun _ _ h => (hc h).elim
      · exact fun _ _ h => (hc h).elim
      · exact h7
      · exact h8
      · exact h9

/-! ## Section 4 - the appended declaration -/

/-- The line that declares an empty type. -/
def emptyClass (name : List Char) : List Char := "class ".toList ++ (name ++ " {}\n".toList)

theorem not_mem_emptyClass {name : List Char} (h : IsName name) {x : Char} (hx : isIdentPart x = false)
    (hclass : x ∉ "class ".toList) (hend : x ∉ " {}\n".toList) : x ∉ emptyClass name := by
  intro hmem
  rcases List.mem_append.1 hmem with hmem | hmem
  · exact hclass hmem
  · rcases List.mem_append.1 hmem with hmem | hmem
    · exact h.not_mem hx hmem
    · exact hend hmem

theorem emptyClass_quiet {name : List Char} (h : IsName name) : Quiet (emptyClass name) where
  slash := not_mem_emptyClass h (by decide) (by decide) (by decide)
  backslash := not_mem_emptyClass h (by decide) (by decide) (by decide)
  quote := not_mem_emptyClass h (by decide) (by decide) (by decide)
  doubleQuote := not_mem_emptyClass h (by decide) (by decide) (by decide)
  backQuote := not_mem_emptyClass h (by decide) (by decide) (by decide)
  stops := fun p => readTrivia_word (x := 'c') (by decide) p _
  balanced := fun depth p => by
    have hclass : "class ".toList.all isPlain = true := by decide
    refine readBody_plain_append (List.all_eq_true.1 hclass) (fun p => ?_) p
    refine readBody_plain_append (fun c hc => isPlain_of_isIdentPart (h.part c hc)) (fun p => ?_) p
    rfl

/-- The word that an empty class begins with, and what follows it. -/
theorem ident?_emptyClass (name : List Char) (p : Place) : ident? ⟨p, emptyClass name⟩ =
    some ("class", ⟨p.advance "class".toList, ' ' :: (name ++ " {}\n".toList)⟩) := by
  exact ident?_word isName_class (not_isIdentPart_head (by decide) _) p

theorem readDeclaration_emptyClass {name : List Char} (h : IsName name) (p : Place) :
    ∃ d q, readDeclaration ⟨p, emptyClass name⟩ 'c' = .ok (d, ⟨q, ['\n']⟩) ∧
      d.name = String.ofList name ∧ d.base = none ∧ d.body = "" := by
  have htrivia : ∀ q, trivia ⟨q, ' ' :: (name ++ " {}\n".toList)⟩ =
      .ok ⟨q.next ' ', name ++ " {}\n".toList⟩ := fun q => h.trivia_space q _
  have hident : ∀ q, ident? ⟨q, name ++ " {}\n".toList⟩ =
      some (String.ofList name, ⟨q.advance name, " {}\n".toList⟩) := fun q =>
    ident?_word h (not_isIdentPart_head (by decide) _) q
  unfold readDeclaration
  rw [ident?_emptyClass]
  simp only [ne_eq, not_true_eq_false, if_false, htrivia, bind, Except.bind, hident]
  exact ⟨_, _, rfl, rfl, rfl, rfl⟩

/-! ## Section 5 - declarations -/

theorem takeWhile_line (cs U : List Char) :
    (cs ++ '\n' :: U).takeWhile isIdentPart = cs.takeWhile isIdentPart := by
  induction cs with
  | nil => rfl
  | cons c cs ih => simp only [List.cons_append, List.takeWhile_cons, ih]

theorem dropWhile_line (cs U : List Char) :
    (cs ++ '\n' :: U).dropWhile isIdentPart = cs.dropWhile isIdentPart ++ '\n' :: U := by
  induction cs with
  | nil => rfl
  | cons c cs ih =>
    simp only [List.cons_append, List.dropWhile_cons, ih]
    split <;> rfl

theorem ident?_further {c : Cursor} (hne : c.rest ≠ []) (U : List Char) :
    ident? (further U c) = (ident? c).map fun (word, d) => (word, further U d) := by
  obtain ⟨p, cs⟩ := c
  cases cs with
  | nil => exact absurd rfl hne
  | cons x xs =>
    have htake := takeWhile_line (x :: xs) U
    have hdrop := dropWhile_line (x :: xs) U
    simp only [ident?, further, List.cons_append] at htake hdrop ⊢
    rw [htake, hdrop]
    split <;> rfl

theorem rest_ne_nil_of_ident? {c d : Cursor} {word : String} (h : ident? c = some (word, d)) : c.rest ≠ [] := by
  intro hnil
  simp [ident?, hnil] at h

theorem ident?_further_of {c d : Cursor} {word : String} (h : ident? c = some (word, d)) (U : List Char) :
    ident? (further U c) = some (word, further U d) := by
  rw [ident?_further (rest_ne_nil_of_ident? h), h]
  rfl

/-- Whether a body opens at a cursor. -/
def Opens (c : Cursor) : Prop := ∃ cs, c.rest = '{' :: cs

theorem not_opens_of_word {p : Place} {x : Char} {xs : List Char} (hx : isIdentPart x = true) :
    ¬ Opens ⟨p, x :: xs⟩ := by
  rintro ⟨cs, h⟩
  obtain ⟨rfl, -⟩ := List.cons.inj h
  exact absurd hx (by decide)

section
variable {name : List Char} (hname : IsName name)
include hname

theorem trivia_further_eq (c : Cursor) :
    trivia (further (emptyClass name) c) = (trivia c).map (beyond (emptyClass name)) :=
  readTrivia_append (emptyClass_quiet hname) .code c.place c.rest

theorem trivia_further {c d' : Cursor} : trivia (further (emptyClass name) c) = .ok d' ↔
    ∃ d, trivia c = .ok d ∧ d' = beyond (emptyClass name) d := by
  rw [trivia_further_eq hname]
  rcases trivia c with fault | d
  · simp [Except.map]
  · simp [Except.map, eq_comm]

omit hname in
theorem ident?_beyond_of {c d : Cursor} {word : String} (h : ident? c = some (word, d)) :
    ident? (beyond (emptyClass name) c) = some (word, further (emptyClass name) d) := by
  rw [beyond, if_neg (rest_ne_nil_of_ident? h)]
  exact ident?_further_of h _

/-- A word that the text lacks is found in the appended line, and another word follows it. -/
theorem ident?_beyond {c d' : Cursor} {word : String}
    (h : ident? (beyond (emptyClass name) c) = some (word, d')) :
    (∃ d, ident? c = some (word, d) ∧ d' = further (emptyClass name) d) ∨
      ∃ q x xs, trivia d' = .ok ⟨q, x :: xs⟩ ∧ isIdentPart x = true := by
  by_cases hne : c.rest = []
  · refine .inr ?_
    rw [beyond, if_pos hne, ident?_emptyClass] at h
    obtain ⟨-, rfl⟩ := Prod.mk.inj (Option.some.inj h)
    obtain ⟨x, xs, rfl, hx⟩ := hname.start
    exact ⟨_, x, xs ++ " {}\n".toList, hname.trivia_space _ _, isIdentPart_of_isIdentStart hx⟩
  · refine .inl ?_
    rw [beyond, if_neg hne, ident?_further hne] at h
    rcases hw : ident? c with _ | ⟨w, d⟩
    · simp [hw] at h
    · simp only [hw, Option.map_some, Option.some.injEq, Prod.mk.injEq] at h
      obtain ⟨rfl, rfl⟩ := h
      exact ⟨d, rfl, rfl⟩

omit hname in
/-- A body opens beyond the text only if it opens in the text. -/
theorem opens_beyond {c : Cursor} (h : Opens (beyond (emptyClass name) c)) :
    Opens c ∧ beyond (emptyClass name) c = further (emptyClass name) c := by
  by_cases hne : c.rest = []
  · rw [beyond, if_pos hne] at h
    exact absurd h (not_opens_of_word (by decide))
  · rw [beyond, if_neg hne] at h ⊢
    obtain ⟨cs, hcs⟩ := h
    rcases hc : c.rest with _ | ⟨x, xs⟩
    · exact absurd hc hne
    · simp only [further, hc, List.cons_append, List.cons.injEq] at hcs
      exact ⟨⟨xs, by rw [hc, hcs.1]⟩, rfl⟩

omit hname in
theorem beyond_of_opens {c : Cursor} (h : Opens c) :
    beyond (emptyClass name) c = further (emptyClass name) c := by
  obtain ⟨cs, hcs⟩ := h
  rw [beyond, if_neg (by simp [hcs])]

/-- A base that is followed by a body is read the same, and no other is. -/
theorem readBase_beyond {n : String} {c d' : Cursor} {base : Option String} :
    (readBase n (beyond (emptyClass name) c) = .ok (base, d') ∧ Opens d') ↔
      ∃ d, readBase n c = .ok (base, d) ∧ Opens d ∧ d' = further (emptyClass name) d := by
  constructor
  · rintro ⟨h, hopen⟩
    rcases readBase_eq_ok.1 h with ⟨hcs, rfl, rfl⟩ | ⟨cs', atBase', word, after', hcs, h₁, h₂, h₃, rfl⟩
    · obtain ⟨hc, heq⟩ := opens_beyond hopen
      refine ⟨c, readBase_eq_ok.2 (.inl ⟨?_, rfl, rfl⟩), hc, heq⟩
      rintro cs h0
      exact hcs (cs ++ '\n' :: emptyClass name) (by rw [heq, further, h0, List.cons_append])
    · have hne : c.rest ≠ [] := by
        intro h0
        rw [beyond, if_pos h0] at hcs
        exact absurd (List.cons.inj hcs).1 (by decide)
      rcases hc : c.rest with _ | ⟨x, xs⟩
      · exact absurd hc hne
      · rw [beyond, if_neg hne] at hcs h₁
        simp only [further, hc, List.cons_append, List.cons.injEq] at hcs h₁
        obtain ⟨rfl, rfl⟩ := hcs
        obtain ⟨atBase, k₁, rfl⟩ := (trivia_further hname (c := ⟨c.place.next ':', xs⟩)).1 h₁
        rcases ident?_beyond hname h₂ with ⟨after, k₂, rfl⟩ | ⟨q, y, ys, hq, hy⟩
        · obtain ⟨d, k₃, rfl⟩ := (trivia_further hname).1 h₃
          obtain ⟨hd, heq⟩ := opens_beyond hopen
          exact ⟨d, readBase_eq_ok.2 (.inr ⟨xs, atBase, word, after, hc, k₁, k₂, k₃, rfl⟩), hd, heq⟩
        · rw [hq] at h₃
          cases h₃
          exact absurd hopen (not_opens_of_word hy)
  · rintro ⟨d, h, hopen, rfl⟩
    have hopen' : Opens (further (emptyClass name) d) := by
      obtain ⟨cs, hcs⟩ := hopen
      exact ⟨cs ++ '\n' :: emptyClass name, by rw [further, hcs, List.cons_append]⟩
    refine ⟨readBase_eq_ok.2 ?_, hopen'⟩
    rcases readBase_eq_ok.1 h with ⟨hcs, rfl, rfl⟩ | ⟨cs, atBase, word, after, hcs, h₁, h₂, h₃, rfl⟩
    · refine .inl ⟨?_, rfl, (beyond_of_opens hopen).symm⟩
      intro cs h0
      obtain ⟨xs, hxs⟩ := hopen
      rw [beyond_of_opens ⟨xs, hxs⟩, further, hxs] at h0
      exact absurd (List.cons.inj h0).1 (by decide)
    · refine .inr ⟨cs ++ '\n' :: emptyClass name, beyond (emptyClass name) atBase, word,
        further (emptyClass name) after, ?_, ?_, ident?_beyond_of h₂, ?_, rfl⟩
      · rw [beyond, if_neg (by simp [hcs]), further, hcs, List.cons_append]
      · have k := (trivia_further hname (c := ⟨c.place.next ':', cs⟩)).2 ⟨atBase, h₁, rfl⟩
        rwa [beyond, if_neg (by simp [hcs])]
      · exact (trivia_further hname).2 ⟨d, h₃, (beyond_of_opens hopen).symm⟩

theorem readBody_further (p : Place) (cs : List Char) : readBody .code 0 p (cs ++ '\n' :: emptyClass name) =
    (readBody .code 0 p cs).map (reach (emptyClass name)) :=
  readBody_append (emptyClass_quiet hname) .code 0 p cs (by simp)

/-- The declarations of a text are read the same when a line follows it, and no others. -/
theorem readDeclaration_further {c after' : Cursor} {first : Char} {decl : Declaration} (hne : c.rest ≠ []) :
    readDeclaration (further (emptyClass name) c) first = .ok (decl, after') ↔
      ∃ after, readDeclaration c first = .ok (decl, after) ∧ after' = further (emptyClass name) after := by
  constructor
  · intro h
    obtain ⟨afterWord', atName', n, afterName', atBase', base, opening', cs', body,
      h₁, h₂, h₃, h₄, h₅, h₆, h₇, rfl⟩ := readDeclaration_eq_ok.1 h
    rw [ident?_further hne] at h₁
    rcases k₁ : ident? c with _ | ⟨w, afterWord⟩
    · simp [k₁] at h₁
    simp only [k₁, Option.map_some, Option.some.injEq, Prod.mk.injEq] at h₁
    obtain ⟨rfl, rfl⟩ := h₁
    obtain ⟨atName, k₂, rfl⟩ := (trivia_further hname).1 h₂
    rcases ident?_beyond hname h₃ with ⟨afterName, k₃, rfl⟩ | ⟨q, y, ys, hq, hy⟩
    · obtain ⟨atBase, k₄, rfl⟩ := (trivia_further hname).1 h₄
      obtain ⟨opening, k₅, ⟨cs, hcs⟩, rfl⟩ := (readBase_beyond hname).1 ⟨h₅, cs', h₆⟩
      obtain rfl : cs' = cs ++ '\n' :: emptyClass name := by
        rw [further, hcs] at h₆
        exact (List.cons.inj h₆).2.symm
      rw [readBody_further hname] at h₇
      rcases k₇ : readBody .code 0 (opening.place.next '{') cs with fault | _ | ⟨b, after⟩
      · simp [further, k₇, Except.map] at h₇
      · simp [further, k₇, Except.map, reach] at h₇
      · simp only [further, k₇, Except.map, reach, Option.map_some, Except.ok.injEq, Option.some.injEq,
          Prod.mk.injEq] at h₇
        obtain ⟨rfl, rfl⟩ := h₇
        exact ⟨after, readDeclaration_eq_ok.2 ⟨afterWord, atName, n, afterName, atBase, base, opening, cs, b,
          k₁, k₂, k₃, k₄, k₅, hcs, k₇, rfl⟩, rfl⟩
    · -- The name would be that of the appended line, and no body opens after it.
      rw [hq] at h₄
      cases h₄
      rw [readBase_word n hy] at h₅
      cases h₅
      exact absurd ⟨cs', h₆⟩ (not_opens_of_word hy)
  · rintro ⟨after, h, rfl⟩
    obtain ⟨afterWord, atName, n, afterName, atBase, base, opening, cs, body,
      h₁, h₂, h₃, h₄, h₅, h₆, h₇, rfl⟩ := readDeclaration_eq_ok.1 h
    obtain ⟨k₅, -⟩ := (readBase_beyond hname).2 ⟨opening, h₅, ⟨cs, h₆⟩, rfl⟩
    refine readDeclaration_eq_ok.2 ⟨_, _, n, _, _, base, _, cs ++ '\n' :: emptyClass name, body, ?_,
      (trivia_further hname).2 ⟨atName, h₂, rfl⟩, ident?_beyond_of h₃,
      (trivia_further hname).2 ⟨atBase, h₄, rfl⟩, k₅, ?_, ?_, rfl⟩
    · exact ident?_further_of h₁ _
    · rw [further, h₆, List.cons_append]
    · show readBody .code 0 (opening.place.next '{') _ = _
      rw [readBody_further hname, h₇]
      rfl

end

/-! ## Section 6 - units -/

/-- Whether a declaration is that of an empty type with a name. -/
structure Declares (name : List Char) (d : Declaration) : Prop where
  name : d.name = String.ofList name
  base : d.base = none
  body : d.body = ""

section
variable {name : List Char} (hname : IsName name)
include hname

/-- A unit with an empty class behind it has the declarations of the unit and that of the class. -/
theorem readUnit_further {c : Cursor} {ds : List Declaration} (h : readUnit c = .ok ds) :
    ∃ d, readUnit (further (emptyClass name) c) = .ok (ds ++ [d]) ∧ Declares name d := by
  induction ds generalizing c with
  | nil =>
    obtain ⟨start, hstart, ⟨hrest, -⟩ | ⟨_, _, _, _, _, -, -, -, hds⟩⟩ := readUnit_eq_ok.1 h
    · obtain ⟨d, q, hd, h₁, h₂, h₃⟩ := readDeclaration_emptyClass hname (start.place.next '\n')
      have hend : readUnit ⟨q, ['\n']⟩ = .ok [] :=
        readUnit_eq_ok.2 ⟨⟨q.next '\n', []⟩, rfl, .inl ⟨rfl, rfl⟩⟩
      have htrivia := (trivia_further hname).2 ⟨start, hstart, rfl⟩
      rw [beyond, if_pos hrest] at htrivia
      exact ⟨d, readUnit_eq_ok.2 ⟨_, htrivia, .inr ⟨_, _, d, _, [], rfl, hd, hend, rfl⟩⟩, h₁, h₂, h₃⟩
    · cases hds
  | cons x ds ih =>
    obtain ⟨start, hstart, ⟨-, hds⟩ | ⟨first, rest, d, after, others, hrest, hd, hafter, hds⟩⟩ :=
      readUnit_eq_ok.1 h
    · cases hds
    · obtain ⟨rfl, rfl⟩ := List.cons.inj hds
      obtain ⟨last, hlast, hmarker⟩ := ih hafter
      have hne : start.rest ≠ [] := by simp [hrest]
      have htrivia := (trivia_further hname).2 ⟨start, hstart, rfl⟩
      rw [beyond, if_neg hne] at htrivia
      refine ⟨last, readUnit_eq_ok.2 ⟨_, htrivia, .inr ⟨first, rest ++ '\n' :: emptyClass name, x, _,
        ds ++ [last], ?_, (readDeclaration_further hname hne).2 ⟨after, hd, rfl⟩, hlast, rfl⟩⟩, hmarker⟩
      rw [further, hrest, List.cons_append]

/-- A text that is a unit with an empty class behind it is a unit without it. -/
theorem readUnit_of_further {c : Cursor} {ds : List Declaration}
    (h : readUnit (further (emptyClass name) c) = .ok ds) : ∃ ds', readUnit c = .ok ds' := by
  induction ds generalizing c with
  | nil =>
    obtain ⟨start', hstart, ⟨hrest, -⟩ | ⟨_, _, _, _, _, -, -, -, hds⟩⟩ := readUnit_eq_ok.1 h
    · obtain ⟨start, k, rfl⟩ := (trivia_further hname).1 hstart
      by_cases hnil : start.rest = []
      · exact ⟨[], readUnit_eq_ok.2 ⟨start, k, .inl ⟨hnil, rfl⟩⟩⟩
      · simp [beyond, hnil, further] at hrest
    · cases hds
  | cons x ds ih =>
    obtain ⟨start', hstart, ⟨-, hds⟩ | ⟨first, rest', d, after', others, hrest, hd, hafter, hds⟩⟩ :=
      readUnit_eq_ok.1 h
    · cases hds
    · obtain ⟨rfl, rfl⟩ := List.cons.inj hds
      obtain ⟨start, k, rfl⟩ := (trivia_further hname).1 hstart
      rcases hnil : start.rest with _ | ⟨y, rest⟩
      · exact ⟨[], readUnit_eq_ok.2 ⟨start, k, .inl ⟨hnil, rfl⟩⟩⟩
      · have hne : start.rest ≠ [] := by simp [hnil]
        rw [beyond, if_neg hne] at hrest hd
        obtain rfl : y = first := by
          simp only [further, hnil, List.cons_append, List.cons.injEq] at hrest
          exact hrest.1
        obtain ⟨after, kd, rfl⟩ := (readDeclaration_further hname hne).1 hd
        obtain ⟨others, hothers⟩ := ih hafter
        exact ⟨x :: others,
          readUnit_eq_ok.2 ⟨start, k, .inr ⟨y, rest, x, after, others, hnil, kd, hothers, rfl⟩⟩⟩

end

end HotReload.Scan

namespace HotReload

open Scan

/-- A line that declares an empty class adds its declaration at the end of a unit, and makes no unit of
    any other text. -/
theorem scan_append (source : String) {line : String} {name : List Char} (hname : IsName name)
    (hline : line.toList = '\n' :: emptyClass name) :
    (∀ ds, scan source = .ok ds → ∃ d, scan (source ++ line) = .ok (ds ++ [d]) ∧ Declares name d) ∧
    (∀ fault, scan source = .error fault → ∃ fault', scan (source ++ line) = .error fault') := by
  have htext : scan (source ++ line) = readUnit (further (emptyClass name) (.ofText source.toList)) := by
    rw [scan, String.toList_append, hline]
    rfl
  rw [htext]
  constructor
  · intro ds h
    exact readUnit_further hname h
  · intro fault h
    rcases hfurther : readUnit (further (emptyClass name) (.ofText source.toList)) with fault' | ds
    · exact ⟨fault', rfl⟩
    · obtain ⟨ds', hds⟩ := readUnit_of_further hname hfurther
      rw [scan, hds] at h
      cases h

end HotReload
