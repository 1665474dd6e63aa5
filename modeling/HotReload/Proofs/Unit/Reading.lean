import HotReload.Unit.Scan

/-! # Reading: how the readers of a unit take their text

    The characters of words are few, so none of them is a blank, a mark of a comment or
    of a literal, or a brace.  From this follows what the readers do with a word.  The
    later sections turn the readers of bases, declarations and units around: each says in
    which ways its reader can have given what it gave. -/

namespace HotReload.Scan

/-! ## Section 1 - the characters of words -/

theorem isIdentPart_range {c : Char} (h : isIdentPart c = true) :
    48 ≤ c.toNat ∧ c.toNat ≤ 57 ∨ 65 ≤ c.toNat ∧ c.toNat ≤ 90 ∨ c.toNat = 95 ∨
      97 ≤ c.toNat ∧ c.toNat ≤ 122 := by
  change ((decide ('A'.val ≤ c.val ∧ c.val ≤ 'Z'.val) || ('a'.val ≤ c.val && c.val ≤ 'z'.val)) ||
    ('0'.val ≤ c.val && c.val ≤ '9'.val) || decide (c = '_')) = true at h
  simp only [Bool.or_eq_true, Bool.and_eq_true, decide_eq_true_eq, UInt32.le_iff_toNat_le] at h
  rcases h with ((h | h) | h) | rfl
  · exact .inr (.inl h)
  · exact .inr (.inr (.inr h))
  · exact .inl h
  · decide

theorem isBlank_of_isIdentPart {c : Char} (h : isIdentPart c = true) : isBlank c = false := by
  have hr := isIdentPart_range h
  simp only [isBlank, blankRanges, List.any_cons, List.any_nil, Bool.or_false, Bool.or_eq_false_iff,
    Bool.and_eq_false_iff, decide_eq_false_iff_not]
  omega

/-- A character outside the range of words stands in no word. -/
theorem ne_of_isIdentPart {c x : Char} (h : isIdentPart c = true)
    (hx : isIdentPart x = false) : c ≠ x := by
  rintro rfl
  rw [h] at hx
  cases hx

/-- A word that can be the name of a declared type. -/
structure IsName (name : List Char) : Prop where
  start : ∃ x xs, name = x :: xs ∧ isIdentStart x = true
  part : ∀ c ∈ name, isIdentPart c = true

theorem isIdentPart_of_isIdentStart {c : Char} (h : isIdentStart c = true) : isIdentPart c = true := by
  simp only [isIdentStart, isIdentPart, Char.isAlphanum, Bool.or_eq_true] at h ⊢
  exact h.imp_left .inl

theorem IsName.not_mem {name : List Char} (h : IsName name) {x : Char} (hx : isIdentPart x = false) :
    x ∉ name := fun hmem => ne_of_isIdentPart (h.part x hmem) hx rfl

/-- A character that a body takes as it is, outside of comments and literals. -/
def isPlain (c : Char) : Bool := !(c = '/' || c = '\'' || c = '"' || c = '`' || c = '{' || c = '}')

theorem isPlain_of_isIdentPart {c : Char} (h : isIdentPart c = true) : isPlain c = true := by
  have hne : ∀ x, isIdentPart x = false → c ≠ x := fun x => ne_of_isIdentPart h
  simp [isPlain, hne '/' (by decide), hne '\'' (by decide), hne '"' (by decide), hne '`' (by decide),
    hne '{' (by decide), hne '}' (by decide)]

/-! ## Section 2 - words -/

/-- Trivia end before anything that begins neither a blank nor a comment. -/
def Solid (next : Option Char) : Prop := ∀ c ∈ next, isBlank c = false ∧ c ≠ '/'

theorem readTrivia_solid {cs : List Char} (h : Solid cs.head?) (p : Place) :
    readTrivia .code p cs = .ok ⟨p, cs⟩ := by
  cases cs with
  | nil => rfl
  | cons c cs =>
    obtain ⟨hblank, hslash⟩ := h c rfl
    rw [readTrivia, if_neg (by simp [hblank])]
    · exact fun _ h => absurd h hslash
    · exact fun _ h => absurd h hslash
    all_goals simp

theorem solid_of_isIdentPart {x : Char} (hx : isIdentPart x = true) : Solid (some x) := by
  rintro c ⟨rfl⟩
  exact ⟨isBlank_of_isIdentPart hx, ne_of_isIdentPart hx (by decide)⟩

/-- A word ends trivia. -/
theorem readTrivia_word {x : Char} (hx : isIdentPart x = true) (p : Place) (cs : List Char) :
    readTrivia .code p (x :: cs) = .ok ⟨p, x :: cs⟩ := by
  have hsolid : Solid (x :: cs).head? := solid_of_isIdentPart hx
  exact readTrivia_solid hsolid p

/-- Of a space and a word, trivia take the space. -/
theorem IsName.trivia_space {word : List Char} (h : IsName word) (p : Place) (rest : List Char) :
    trivia ⟨p, ' ' :: (word ++ rest)⟩ = .ok ⟨p.next ' ', word ++ rest⟩ := by
  obtain ⟨x, xs, rfl, hx⟩ := h.start
  show readTrivia .code p (' ' :: x :: (xs ++ rest)) = .ok ⟨p.next ' ', x :: (xs ++ rest)⟩
  rw [readTrivia, if_pos (by decide), readTrivia_word (isIdentPart_of_isIdentStart hx)]
  all_goals simp

theorem readBody_plain {depth : Nat} {p : Place} {c : Char} {cs : List Char} (hc : isPlain c = true) :
    readBody .code depth p (c :: cs) = readBody.keep [c] (readBody .code depth (p.next c) cs) := by
  simp only [isPlain, Bool.not_eq_true', Bool.or_eq_false_iff, decide_eq_false_iff_not] at hc
  obtain ⟨⟨⟨⟨⟨h1, h2⟩, h3⟩, h4⟩, h5⟩, h6⟩ := hc
  rw [readBody] <;> simp_all

theorem isName_class : IsName "class".toList :=
  ⟨⟨'c', "lass".toList, rfl, by decide⟩, List.all_eq_true.1 (by decide)⟩

/-- No word goes on with a character outside the range of words. -/
theorem not_isIdentPart_head {x : Char} (hx : isIdentPart x = false) (rest : List Char) :
    ∀ c ∈ (x :: rest).head?, isIdentPart c = false := by
  rintro c ⟨rfl⟩
  exact hx

/-- The word in front of a text in which it does not go on. -/
theorem takeWhile_word {word rest : List Char} (hword : ∀ c ∈ word, isIdentPart c = true)
    (hrest : ∀ c ∈ rest.head?, isIdentPart c = false) : (word ++ rest).takeWhile isIdentPart = word := by
  have hstop : rest.takeWhile isIdentPart = [] := by
    cases rest with
    | nil => rfl
    | cons c cs => rw [List.takeWhile_cons_of_neg (by simp [hrest c rfl])]
  rw [List.takeWhile_append_of_pos hword, hstop, List.append_nil]

/-- A word that can be a name is read as the identifier at the cursor if it does not go on. -/
theorem ident?_word {word rest : List Char} (h : IsName word) (hrest : ∀ c ∈ rest.head?, isIdentPart c = false)
    (p : Place) : ident? ⟨p, word ++ rest⟩ = some (String.ofList word, ⟨p.advance word, rest⟩) := by
  have htake := takeWhile_word h.part hrest
  have hdrop : (word ++ rest).dropWhile isIdentPart = rest := by
    have := List.takeWhile_append_dropWhile (p := isIdentPart) (l := word ++ rest)
    rwa [htake, List.append_cancel_left_eq] at this
  obtain ⟨x, xs, rfl, hx⟩ := h.start
  rw [List.cons_append] at htake hdrop ⊢
  rw [ident?]
  simp only [hx, if_true, htake, hdrop]

theorem isName_of_ident? {c d : Cursor} {word : String} (h : ident? c = some (word, d)) :
    IsName word.toList := by
  obtain ⟨p, cs⟩ := c
  cases cs with
  | nil => simp [ident?] at h
  | cons x xs =>
    simp only [ident?] at h
    split at h
    · rename_i hx
      obtain ⟨rfl, -⟩ := Prod.mk.inj (Option.some.inj h)
      have hpart : isIdentPart x = true := isIdentPart_of_isIdentStart hx
      rw [String.toList_ofList]
      exact ⟨⟨x, xs.takeWhile isIdentPart, List.takeWhile_cons_of_pos hpart, hx⟩,
        List.all_eq_true.1 List.all_takeWhile⟩
    · cases h

/-! ## Section 3 - bases and declarations -/

/-- A word is no base. -/
theorem readBase_word (n : String) {p : Place} {x : Char} {xs : List Char} (hx : isIdentPart x = true) :
    readBase n ⟨p, x :: xs⟩ = .ok (none, ⟨p, x :: xs⟩) := by
  have hcolon : x ≠ ':' := ne_of_isIdentPart hx (by decide)
  unfold readBase
  split
  · rename_i cs heq
    exact absurd (List.cons.inj heq).1 hcolon
  · rfl

/-- The two ways in which a base is read. -/
theorem readBase_eq_ok {n : String} {c d : Cursor} {base : Option String} :
    readBase n c = .ok (base, d) ↔
      ((∀ cs, c.rest ≠ ':' :: cs) ∧ base = none ∧ d = c) ∨
      ∃ cs atBase word afterBase, c.rest = ':' :: cs ∧ trivia ⟨c.place.next ':', cs⟩ = .ok atBase ∧
        ident? atBase = some (word, afterBase) ∧ trivia afterBase = .ok d ∧ base = some word := by
  unfold readBase
  constructor
  · intro h
    split at h
    · rename_i cs hcs
      refine .inr ?_
      rcases h₁ : trivia ⟨c.place.next ':', cs⟩ with fault | atBase
      · simp [h₁, bind, Except.bind] at h
      · simp only [h₁, bind, Except.bind] at h
        rcases h₂ : ident? atBase with _ | ⟨word, afterBase⟩
        · simp [h₂] at h
        · rcases h₃ : trivia afterBase with fault | e
          · simp [h₂, h₃] at h
          · simp only [h₂, h₃, pure, Except.pure, Except.ok.injEq, Prod.mk.injEq] at h
            obtain ⟨rfl, rfl⟩ := h
            exact ⟨cs, atBase, word, afterBase, hcs, h₁, h₂, h₃, rfl⟩
    · rename_i hcs
      simp only [Except.ok.injEq, Prod.mk.injEq] at h
      exact .inl ⟨fun cs h => hcs cs h, h.1.symm, h.2.symm⟩
  · rintro (⟨hcs, rfl, rfl⟩ | ⟨cs, atBase, word, afterBase, hcs, h₁, h₂, h₃, rfl⟩)
    · split
      · rename_i cs h
        exact absurd h (hcs cs)
      · rfl
    · rw [hcs]
      simp only [h₁, bind, Except.bind, h₂, h₃, pure, Except.pure]

/-- How a declaration is read. -/
theorem readDeclaration_eq_ok {c after : Cursor} {first : Char} {decl : Declaration} :
    readDeclaration c first = .ok (decl, after) ↔
      ∃ afterWord atName name afterName atBase base opening cs body,
        ident? c = some ("class", afterWord) ∧ trivia afterWord = .ok atName ∧
        ident? atName = some (name, afterName) ∧ trivia afterName = .ok atBase ∧
        readBase name atBase = .ok (base, opening) ∧ opening.rest = '{' :: cs ∧
        readBody .code 0 (opening.place.next '{') cs = .ok (some (body, after)) ∧
        decl = ⟨name, base, String.ofList body, c.place, opening.place.next '{'⟩ := by
  unfold readDeclaration
  constructor
  · -- Each part is either missing, and then there is no declaration, or it is the one that is named here.
    intro h
    rcases h₁ : ident? c with _ | ⟨word, afterWord⟩
    · simp [h₁] at h
    simp only [h₁] at h
    split at h
    · simp at h
    · rename_i hword
      obtain rfl : word = "class" := by simpa using hword
      rcases h₂ : trivia afterWord with fault | atName
      · simp [h₂, bind, Except.bind] at h
      simp only [h₂, bind, Except.bind] at h
      rcases h₃ : ident? atName with _ | ⟨name, afterName⟩
      · simp [h₃] at h
      simp only [h₃] at h
      rcases h₄ : trivia afterName with fault | atBase
      · simp [h₄] at h
      simp only [h₄] at h
      rcases h₅ : readBase name atBase with fault | ⟨base, opening⟩
      · simp [h₅] at h
      simp only [h₅] at h
      split at h
      · rename_i cs hcs
        split at h
        · simp at h
        · rename_i r hr
          split at h
          · simp at h
          · rename_i body after'
            simp only [Except.ok.injEq, Prod.mk.injEq] at h
            obtain ⟨rfl, rfl⟩ := h
            exact ⟨afterWord, atName, name, afterName, atBase, base, opening, cs, body, rfl, h₂, h₃, h₄, h₅,
              hcs, hr, rfl⟩
      · simp at h
  · rintro ⟨afterWord, atName, name, afterName, atBase, base, opening, cs, body,
      h₁, h₂, h₃, h₄, h₅, h₆, h₇, rfl⟩
    simp only [h₁, ne_eq, not_true_eq_false, if_false, h₂, bind, Except.bind, h₃, h₄, h₅, h₆, h₇]

/-! ## Section 4 - units -/

theorem readUnit_of_fault {c : Cursor} {fault : ScanFault} (h : trivia c = .error fault) :
    readUnit c = .error fault := by
  rw [readUnit]
  split
  · next h' =>
    cases h.symm.trans h'
    rfl
  · next h' =>
    rw [h] at h'
    cases h'

theorem readUnit_of_end {c start : Cursor} (h : trivia c = .ok start) (hrest : start.rest = []) :
    readUnit c = .ok [] := by
  rw [readUnit]
  split
  · next h' =>
    rw [h] at h'
    cases h'
  · next start' h' =>
    cases h.symm.trans h'
    rw [hrest]

/-- Where text is left a declaration is read, and behind it the rest of the unit. -/
theorem readUnit_of_start {c start : Cursor} (h : trivia c = .ok start) {first : Char} {rest : List Char}
    (hrest : start.rest = first :: rest) :
    readUnit c = (readDeclaration start first).bind fun read => (readUnit read.2).map (read.1 :: ·) := by
  rw [readUnit]
  split
  · next h' =>
    rw [h] at h'
    cases h'
  · next start' h' =>
    cases h.symm.trans h'
    rw [hrest]
    dsimp only
    split
    · next hdecl =>
      rw [hdecl]
      rfl
    · next hdecl =>
      rw [hdecl]
      rfl

/-- The two ways in which a unit is read: it ends, or it goes on with a declaration. -/
theorem readUnit_eq_ok {c : Cursor} {ds : List Declaration} :
    readUnit c = .ok ds ↔ ∃ start, trivia c = .ok start ∧
      ((start.rest = [] ∧ ds = []) ∨
        ∃ first rest d after others, start.rest = first :: rest ∧
          readDeclaration start first = .ok (d, after) ∧ readUnit after = .ok others ∧
          ds = d :: others) := by
  rcases h : trivia c with fault | start
  · simp [readUnit_of_fault h]
  simp only [Except.ok.injEq, exists_eq_left']
  rcases hrest : start.rest with _ | ⟨first, rest⟩
  · simp [readUnit_of_end h hrest, eq_comm]
  rw [readUnit_of_start h hrest]
  rcases hdecl : readDeclaration start first with fault | ⟨d, after⟩
  · simp [Except.bind, hdecl]
  change (readUnit after).map (d :: ·) = _ ↔ _
  constructor
  · intro hmap
    rcases hafter : readUnit after with fault | others
    · rw [hafter] at hmap
      cases hmap
    · rw [hafter] at hmap
      cases hmap
      exact .inr ⟨first, rest, d, after, others, rfl, hdecl, hafter, rfl⟩
  · rintro (⟨hnil, -⟩ | ⟨_, _, _, _, others, ⟨⟩, hd, hafter, rfl⟩)
    · cases hnil
    · cases hdecl.symm.trans hd
      rw [hafter]
      rfl

end HotReload.Scan

namespace HotReload

open Scan

/-- What is declared is named by a word. -/
theorem isName_of_scan {source : String} {ds : List Declaration} (h : scan source = .ok ds) :
    ∀ d ∈ ds, IsName d.name.toList := by
  have hunit : ∀ {c : Cursor}, readUnit c = .ok ds → ∀ d ∈ ds, IsName d.name.toList := by
    -- The induction is on the declarations, because each of them moves the cursor.
    clear h
    intro c h
    induction ds generalizing c with
    | nil => simp
    | cons x ds ih =>
      obtain ⟨start, -, ⟨-, hds⟩ | ⟨first, rest, d, after, others, -, hd, hafter, hds⟩⟩ := readUnit_eq_ok.1 h
      · cases hds
      · obtain ⟨rfl, rfl⟩ := List.cons.inj hds
        obtain ⟨_, _, n, _, _, _, _, _, _, -, -, hident, -, -, -, -, rfl⟩ := readDeclaration_eq_ok.1 hd
        intro d hmem
        rcases List.mem_cons.1 hmem with rfl | hmem
        · exact isName_of_ident? hident
        · exact ih hafter d hmem
  exact hunit h

end HotReload
