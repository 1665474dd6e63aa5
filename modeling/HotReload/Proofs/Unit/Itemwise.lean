import HotReload.Proofs.Unit.Items

/-! # Itemwise: the readers take their text item by item

    Trivia and bodies are read by two readers.  Of an item that stands in its place each takes
    the whole item, and what each takes consists of items: blanks and comments for trivia, items
    that leave no brace open for a body. -/

namespace HotReload.Scan

/-! ## Section 1 - trivia -/

theorem readTrivia_nested {opened : Place} {text : List Char} (h : Nested text) (depth : Nat) (p : Place)
    (rest : List Char) :
    readTrivia (.blockComment opened (depth + 1)) p (text ++ rest) =
      readTrivia (if depth = 0 then .code else .blockComment opened depth) (p.advance text) rest := by
  induction h generalizing depth p rest with
  | close =>
    show readTrivia (if depth + 1 ≤ 1 then .code else .blockComment opened depth) _ rest = _
    simp
  | comment hinner hrest ihinner ihrest =>
    rw [List.cons_append, List.cons_append, readTrivia, List.append_assoc, ihinner (depth + 1),
      if_neg (Nat.succ_ne_zero depth), ihrest depth]
    simp
  | @char c text htext hopen hclose ih =>
    rw [← htext.head?_append rest] at hopen hclose
    rw [List.cons_append, readTrivia, ih]
    · rfl
    · exact noMark hopen
    · exact noMark hclose

theorem readTrivia_line {text rest : List Char} (htext : '\n' ∉ text)
    (hnext : rest.head? = none ∨ rest.head? = some '\n') (p : Place) :
    readTrivia .lineComment p (text ++ rest) = readTrivia .code (p.advance text) rest := by
  induction text generalizing p with
  | nil =>
    rcases hnext with hnext | hnext
    · rw [List.head?_eq_none_iff.1 hnext]
      rfl
    · obtain ⟨rest, rfl⟩ := List.head?_eq_some_iff.1 hnext
      show readTrivia .code (p.next '\n') rest = readTrivia .code p ('\n' :: rest)
      rw [readTrivia, if_pos (by decide)]
      all_goals simp
  | cons c cs ih =>
    rw [List.mem_cons, not_or] at htext
    rw [List.cons_append, readTrivia, if_neg (Ne.symm htext.1), ih htext.2]
    rfl

/-- Of an item of trivia and a text, trivia take the item. -/
theorem readTrivia_item {i : Item} {rest : List Char} (hi : i.Stands rest.head?) (htrivia : i.isTrivia = true)
    (p : Place) : readTrivia .code p (i.text ++ rest) = readTrivia .code (p.advance i.text) rest := by
  cases i with
  | char c =>
    have hslash : c ≠ '/' := by
      rintro rfl
      exact absurd htrivia (by decide)
    show readTrivia .code p (c :: rest) = _
    have hblank : isBlank c = true := htrivia
    rw [readTrivia, if_pos hblank]
    · rfl
    · exact fun _ h => (hslash h).elim
    · exact fun _ h => (hslash h).elim
    all_goals simp
  | lineComment text =>
    show readTrivia .code p ('/' :: '/' :: (text ++ rest)) = _
    rw [readTrivia, readTrivia_line hi.1 hi.2]
    · rfl
    all_goals simp
  | blockComment text =>
    show readTrivia .code p ('/' :: '*' :: (text ++ rest)) = _
    rw [readTrivia, readTrivia_nested hi]
    · rfl
    all_goals simp
  | string q text => cases htrivia
  | literal e c closed => cases htrivia

/-- Trivia take the blanks and comments in front of a text. -/
theorem readTrivia_isTrivia {text rest : List Char} (h : IsTrivia text rest.head?) (p : Place) :
    readTrivia .code p (text ++ rest) = readTrivia .code (p.advance text) rest := by
  obtain ⟨items, rfl, hfits, htrivia⟩ := h
  induction items generalizing p with
  | nil => rfl
  | cons i items ih =>
    obtain ⟨hi, hitems⟩ := List.forall_mem_cons.1 htrivia
    rw [spell_cons, List.append_assoc, readTrivia_item _ hi, ih _ hfits.2 hitems, Place.advance_append]
    rw [List.head?_append]
    exact hfits.1

theorem stands_of_isBlank {c : Char} (h : isBlank c = true) (next : Option Char) : (Item.char c).Stands next := by
  have hne : ∀ x, isBlank x = false → c ≠ x := by
    rintro x hx rfl
    rw [h] at hx
    cases hx
  refine ⟨hne _ (by decide), hne _ (by decide), hne _ (by decide), fun hslash => ?_⟩
  exact absurd hslash (hne '/' (by decide))

theorem proper_close (opened : Place) (depth : Nat) :
    (if depth ≤ 1 then Mode.code else .blockComment opened (depth - 1)).Proper := by
  split
  · trivial
  · show 0 < depth - 1
    omega

/-- What trivia take is blanks and comments, once they are back in code. -/
theorem splits_of_readTrivia {m : Mode} {p : Place} {cs : List Char} {c : Cursor}
    (h : readTrivia m p cs = .ok c) (hm : m.Proper) (hstring : ∀ o q, m ≠ .string o q) :
    ∃ text, cs = text ++ c.rest ∧ m.Splits text c.rest.head? (∀ i ∈ ·, i.isTrivia = true) := by
  have hcons : ∀ {i : Item} (items : List Item), i.isTrivia = true → (∀ i ∈ items, i.isTrivia = true) →
      ∀ j ∈ i :: items, j.isTrivia = true := fun _ hi hitems => List.forall_mem_cons.2 ⟨hi, hitems⟩
  -- One case for each clause, as for a body; but here the first character that is no trivia ends the text.
  fun_induction readTrivia m p cs with
  | case1 => simp at h
  | case2 m p hblock =>
    obtain rfl := Except.ok.inj h
    refine ⟨[], rfl, ?_⟩
    cases m with
    | code => exact splits_nil (by simp)
    | lineComment => exact ⟨[], [], rfl, ⟨by simp, .inl rfl⟩, trivial, by simp⟩
    | blockComment o d => exact absurd rfl (hblock o d)
    | string o q => exact absurd rfl (hstring o q)
  | case3 opened depth p cs ih =>
    obtain ⟨text, rfl, hsplits⟩ := ih h (Nat.succ_pos depth) (by simp)
    exact ⟨'/' :: '*' :: text, rfl, splits_block_open hm hsplits⟩
  | case4 opened depth p cs ih =>
    obtain ⟨text, rfl, hsplits⟩ := ih h (proper_close opened depth) (by split <;> simp)
    exact ⟨'*' :: '/' :: text, rfl, splits_block_close hm hsplits⟩
  | case5 opened depth p c' cs h1 h2 ih =>
    obtain ⟨text, rfl, hsplits⟩ := ih h hm (by simp)
    exact ⟨c' :: text, rfl, splits_block_char hsplits (not_mark_of_append h1) (not_mark_of_append h2)⟩
  | case6 p c' cs ih =>
    obtain ⟨text, rfl, hsplits⟩ := ih h (by split <;> trivial) (by split <;> simp)
    refine ⟨c' :: text, rfl, ?_⟩
    split at hsplits
    · rename_i hc
      subst hc
      exact splits_line_end hsplits fun items => hcons items (by decide)
    · rename_i hc
      exact splits_line_char hc hsplits
  | case7 m p cs hblock hline ih =>
    obtain rfl : m = .code := by cases m <;> simp_all
    obtain ⟨text, rfl, hsplits⟩ := ih h trivial (by simp)
    exact ⟨'/' :: '/' :: text, rfl, splits_lineComment hsplits fun _ items => hcons items rfl⟩
  | case8 m p cs hblock hline ih =>
    obtain rfl : m = .code := by cases m <;> simp_all
    obtain ⟨text, rfl, hsplits⟩ := ih h Nat.one_pos (by simp)
    exact ⟨'/' :: '*' :: text, rfl, splits_blockComment hsplits fun _ items => hcons items rfl⟩
  | case9 m p c' cs h1 h2 hblock hline h5 h6 hc ih =>
    obtain rfl : m = .code := by cases m <;> simp_all
    obtain ⟨text, rfl, hsplits⟩ := ih h trivial (by simp)
    exact ⟨c' :: text, rfl, splits_item (i := .char c') hsplits (stands_of_isBlank hc _)
      fun items => hcons items hc⟩
  | case10 m p c' cs h1 h2 hblock hline h5 h6 hc =>
    obtain rfl : m = .code := by cases m <;> simp_all
    obtain rfl := Except.ok.inj h
    exact ⟨[], rfl, splits_nil (by simp)⟩

/-! ## Section 2 - items of a body -/

theorem keep_keep (a b : List Char) (r : Except ScanFault (Option (List Char × Cursor))) :
    readBody.keep a (readBody.keep b r) = readBody.keep (a ++ b) r := by
  rcases r with fault | _ | ⟨body, c⟩
  · rfl
  · rfl
  · simp [readBody.keep]

theorem readBody_nested {opened : Place} {text : List Char} (h : Nested text) (level depth : Nat) (p : Place)
    (rest : List Char) : readBody (.blockComment opened (level + 1)) depth p (text ++ rest) =
      readBody.keep text
        (readBody (if level = 0 then .code else .blockComment opened level) depth (p.advance text) rest) := by
  induction h generalizing level p rest with
  | close =>
    show readBody.keep _ (readBody (if level + 1 ≤ 1 then .code else .blockComment opened level) _ _ rest) = _
    simp
  | comment hinner hrest ihinner ihrest =>
    rw [List.cons_append, List.cons_append, readBody, List.append_assoc, ihinner (level + 1),
      if_neg (Nat.succ_ne_zero level), ihrest level, keep_keep, keep_keep]
    simp
  | @char c text htext hopen hclose ih =>
    rw [← htext.head?_append rest] at hopen hclose
    rw [List.cons_append, readBody, ih, keep_keep]
    · rfl
    · exact noMark hopen
    · exact noMark hclose

theorem readBody_quoted {opened : Place} {quote : Char} {text : List Char} (h : Quoted quote text)
    (hquote : quote ≠ '\\') (depth : Nat) (p : Place) (rest : List Char) :
    readBody (.string opened quote) depth p (text ++ rest) =
      readBody.keep text (readBody .code depth (p.advance text) rest) := by
  induction h generalizing p with
  | close =>
    rw [List.singleton_append, readBody, if_pos rfl]
    · rfl
    · exact fun _ _ h _ => absurd h hquote
  | hidden htext ih =>
    rw [List.cons_append, List.cons_append, readBody, ih, keep_keep]
    rfl
  | char htext hc hslash ih =>
    rw [List.cons_append, readBody, if_neg hc, ih, keep_keep]
    · rfl
    · exact fun _ _ h _ => absurd h hslash

theorem readBody_line {text rest : List Char} (htext : '\n' ∉ text)
    (hnext : rest.head? = none ∨ rest.head? = some '\n') (depth : Nat) (p : Place) :
    readBody .lineComment depth p (text ++ rest) =
      readBody.keep text (readBody .code depth (p.advance text) rest) := by
  induction text generalizing p with
  | nil =>
    rcases hnext with hnext | hnext
    · rw [List.head?_eq_none_iff.1 hnext]
      rfl
    · obtain ⟨rest, rfl⟩ := List.head?_eq_some_iff.1 hnext
      show readBody.keep ['\n'] (readBody .code depth (p.next '\n') rest) =
        readBody.keep [] (readBody .code depth p ('\n' :: rest))
      rw [readBody_plain (by decide), keep_keep]
      rfl
  | cons c cs ih =>
    rw [List.mem_cons, not_or] at htext
    rw [List.cons_append, readBody, if_neg (Ne.symm htext.1), ih htext.2, keep_keep]
    rfl

theorem depthAfter_char {c : Char} (hopen : c ≠ '{') (hclose : c ≠ '}') (depth : Nat) (cs : List Char) :
    depthAfter depth (c :: cs) = depthAfter depth cs := by
  rw [depthAfter.eq_5]
  · exact hopen
  · exact fun _ h => absurd h hclose
  · exact fun _ _ h => absurd h hclose

theorem depthAfter_append {depth : Nat} {a b : List Char} {last : Nat} :
    depthAfter depth (a ++ b) = some last ↔
      ∃ middle, depthAfter depth a = some middle ∧ depthAfter middle b = some last := by
  fun_induction depthAfter depth a with
  | case1 depth => simp
  | case2 depth cs ih => exact ih
  | case3 cs => simp [depthAfter]
  | case4 depth cs ih => exact ih
  | case5 depth c cs hopen hzero hclose ih =>
    have hc : c ≠ '}' := by
      rintro rfl
      cases depth with
      | zero => exact hzero rfl rfl
      | succ depth => exact hclose depth rfl rfl
    rw [List.cons_append, depthAfter_char hopen hc, ih]

/-- A slash before neither a slash nor a star is read by itself. -/
theorem readBody_slash {rest : List Char} (hline : rest.head? ≠ some '/') (hblock : rest.head? ≠ some '*')
    (depth : Nat) (p : Place) : readBody .code depth p ('/' :: rest) =
      readBody.keep ['/'] (readBody .code depth (p.next '/') rest) := by
  rw [readBody]
  · rfl
  · exact noMark fun h => hline h.2
  · exact noMark fun h => hblock h.2
  all_goals simp

theorem readBody_char {c : Char} {rest : List Char} (hc : (Item.char c).Stands rest.head?) {depth depth' : Nat}
    (hdepth : depthAfter depth [c] = some depth') (p : Place) :
    readBody .code depth p (c :: rest) = readBody.keep [c] (readBody .code depth' (p.next c) rest) := by
  obtain ⟨hdouble, hback, hsingle, hslash⟩ := hc
  by_cases hopen : c = '{'
  · subst hopen
    obtain rfl : depth + 1 = depth' := Option.some.inj hdepth
    rfl
  by_cases hclose : c = '}'
  · subst hclose
    cases depth with
    | zero => cases hdepth
    | succ depth =>
      obtain rfl : depth = depth' := Option.some.inj hdepth
      rfl
  rw [depthAfter_char hopen hclose] at hdepth
  obtain rfl : depth = depth' := Option.some.inj hdepth
  by_cases hmark : c = '/'
  · subst hmark
    exact readBody_slash (hslash rfl).1 (hslash rfl).2 depth p
  · exact readBody_plain (by simp [isPlain, hdouble, hback, hsingle, hopen, hclose, hmark])

theorem readBody_literal {escaped closed : Bool} {c : Char} {rest : List Char}
    (h : (Item.literal escaped c closed).Stands rest.head?) (depth : Nat) (p : Place) :
    readBody .code depth p ((Item.literal escaped c closed).text ++ rest) =
      readBody.keep (Item.literal escaped c closed).text
        (readBody .code depth (p.advance (Item.literal escaped c closed).text) rest) := by
  obtain ⟨hslash, hquote⟩ := h
  have hnext : closed = false → ∀ cs, rest = '\'' :: cs → False := by
    rintro hclosed cs rfl
    exact hquote hclosed rfl
  cases escaped with
  | true =>
    cases closed with
    | true => rfl
    | false =>
      show readBody .code depth p ('\'' :: '\\' :: c :: rest) = _
      rw [readBody]
      · rfl
      · exact hnext rfl
  | false =>
    have hslash : c ≠ '\\' := hslash rfl
    cases closed with
    | true =>
      show readBody .code depth p ('\'' :: c :: '\'' :: rest) = _
      rw [readBody]
      · rfl
      · exact fun _ h => absurd h hslash
      · exact hslash
    | false =>
      show readBody .code depth p ('\'' :: c :: rest) = _
      rw [readBody]
      · rfl
      · exact fun _ _ h => absurd h hslash
      · exact fun _ _ h => absurd h hslash
      · exact hnext rfl

/-- An item of a body is read as a whole, and its code opens and closes braces. -/
theorem readBody_item {i : Item} {rest : List Char} (hi : i.Stands rest.head?) {depth depth' : Nat}
    (hdepth : depthAfter depth i.code = some depth') (p : Place) :
    readBody .code depth p (i.text ++ rest) =
      readBody.keep i.text (readBody .code depth' (p.advance i.text) rest) := by
  -- Literals and comments leave the depth as it is.
  have hkeeps : i.code = [] → depth = depth' := by
    intro h
    rw [h] at hdepth
    exact Option.some.inj hdepth
  cases i with
  | char c => exact readBody_char hi hdepth p
  | string quote text =>
    obtain rfl := hkeeps rfl
    have hne : quote ≠ '\\' := by rcases hi.1 with rfl | rfl <;> decide
    have hquote : readBody .code depth p (quote :: (text ++ rest)) =
        readBody.keep [quote] (readBody (.string p quote) depth (p.next quote) (text ++ rest)) := by
      rcases hi.1 with rfl | rfl <;> rfl
    show readBody .code depth p (quote :: (text ++ rest)) = _
    rw [hquote, readBody_quoted hi.2 hne, keep_keep]
    rfl
  | literal escaped c closed =>
    obtain rfl := hkeeps rfl
    exact readBody_literal hi depth p
  | lineComment text =>
    obtain rfl := hkeeps rfl
    show readBody.keep ['/', '/'] (readBody .lineComment depth _ (text ++ rest)) = _
    rw [readBody_line hi.1 hi.2, keep_keep]
    rfl
  | blockComment text =>
    obtain rfl := hkeeps rfl
    show readBody.keep ['/', '*'] (readBody (.blockComment p (0 + 1)) depth _ (text ++ rest)) = _
    rw [readBody_nested hi, keep_keep]
    rfl

/-! ## Section 3 - bodies -/

/-- Items that leave no brace open are a body, and the brace behind them closes it. -/
theorem readBody_items {items : List Item} (hfits : Fits items (some '}')) {depth : Nat}
    (hdepth : depthAfter depth (items.flatMap Item.code) = some 0) (p : Place) (rest : List Char) :
    readBody .code depth p (spell items ++ '}' :: rest) =
      .ok (some (spell items, ⟨(p.advance (spell items)).next '}', rest⟩)) := by
  induction items generalizing depth p with
  | nil =>
    obtain rfl : depth = 0 := Option.some.inj hdepth
    rfl
  | cons i items ih =>
    rw [List.flatMap_cons] at hdepth
    obtain ⟨depth', hi, hitems⟩ := depthAfter_append.1 hdepth
    have hnext : (spell items ++ '}' :: rest).head? = (spell items).head?.or (some '}') := List.head?_append
    rw [spell_cons, List.append_assoc, readBody_item (hnext ▸ hfits.1) hi, ih hfits.2 hitems, Place.advance_append]
    rfl

/-- A body that has been read stands before its brace. -/
theorem eq_of_readBody {m : Mode} {depth : Nat} {p : Place} {cs body : List Char} {c : Cursor}
    (h : readBody m depth p cs = .ok (some (body, c))) : cs = body ++ '}' :: c.rest := by
  have hreads := (readBody_reads h).1
  rwa [List.append_assoc] at hreads

theorem head?_of_readBody {m : Mode} {depth : Nat} {p : Place} {cs body : List Char} {c : Cursor}
    (h : readBody m depth p cs = .ok (some (body, c))) : body.head?.or (some '}') = cs.head? := by
  rw [eq_of_readBody h, List.head?_append]
  rfl

/-- The text of a body that has been read consists of items that leave no brace open, once it is back in code. -/
theorem splits_of_readBody {m : Mode} {depth : Nat} {p : Place} {cs body : List Char} {c : Cursor}
    (h : readBody m depth p cs = .ok (some (body, c))) (hm : m.Proper) :
    m.Splits body (some '}') fun items => depthAfter depth (items.flatMap Item.code) = some 0 := by
  -- One case for each clause of the reader.  That the clauses before did not apply tells which mark, quote or brace
  -- the character is not.
  fun_induction readBody m depth p cs generalizing body with
  | case1 | case2 | case3 => simp at h
  | case17 =>
    obtain ⟨rfl, -⟩ := Prod.mk.inj (Option.some.inj (Except.ok.inj h))
    exact splits_nil rfl
  | case4 opened d depth p cs ih =>
    obtain ⟨body, hbody, rfl⟩ := keep_eq_ok_some.1 h
    exact splits_block_open hm (ih hbody (Nat.succ_pos d))
  | case5 opened d depth p cs ih =>
    obtain ⟨body, hbody, rfl⟩ := keep_eq_ok_some.1 h
    exact splits_block_close hm (ih hbody (proper_close opened d))
  | case6 opened d depth p c' cs h1 h2 ih =>
    obtain ⟨body, hbody, rfl⟩ := keep_eq_ok_some.1 h
    rw [eq_of_readBody hbody] at h1 h2
    exact splits_block_char (ih hbody hm) (not_mark_of_append h1) (not_mark_of_append h2)
  | case7 depth p c' cs ih =>
    obtain ⟨body, hbody, rfl⟩ := keep_eq_ok_some.1 h
    have hsplits := ih hbody (by split <;> trivial)
    split at hsplits
    · rename_i hc
      subst hc
      exact splits_line_end hsplits fun items hitems => hitems
    · rename_i hc
      exact splits_line_char hc hsplits
  | case8 opened q depth p c' cs ih =>
    obtain ⟨body, hbody, rfl⟩ := keep_eq_ok_some.1 h
    exact splits_string_hidden (ih hbody hm)
  | case9 opened q depth p c' cs h1 ih =>
    obtain ⟨body, hbody, rfl⟩ := keep_eq_ok_some.1 h
    by_cases hc : c' = q
    · subst hc
      rw [if_pos rfl] at hbody ih
      exact splits_string_close hm (ih hbody trivial)
    · rw [if_neg hc] at hbody ih
      have hslash : c' ≠ '\\' := by
        rintro rfl
        cases cs with
        | nil => cases hbody
        | cons x xs => exact h1 x xs rfl rfl
      exact splits_string_char hc hslash (ih hbody hm)
  | case10 depth p cs ih =>
    obtain ⟨body, hbody, rfl⟩ := keep_eq_ok_some.1 h
    exact splits_lineComment (ih hbody trivial) fun t items hitems => hitems
  | case11 depth p cs ih =>
    obtain ⟨body, hbody, rfl⟩ := keep_eq_ok_some.1 h
    exact splits_blockComment (ih hbody Nat.one_pos) fun t items hitems => hitems
  | case12 depth p c' cs ih =>
    obtain ⟨body, hbody, rfl⟩ := keep_eq_ok_some.1 h
    exact splits_item (i := .literal true c' true) (ih hbody trivial) ⟨by simp, by simp⟩ fun items hitems => hitems
  | case13 depth p c' cs h1 ih =>
    obtain ⟨body, hbody, rfl⟩ := keep_eq_ok_some.1 h
    exact splits_item (i := .literal true c' false) (ih hbody trivial)
      ⟨by simp, fun _ => head?_of_readBody hbody ▸ head?_ne h1⟩ fun items hitems => hitems
  | case14 depth p c' cs h1 h2 ih =>
    obtain ⟨body, hbody, rfl⟩ := keep_eq_ok_some.1 h
    exact splits_item (i := .literal false c' true) (ih hbody trivial) ⟨fun _ => h2, by simp⟩
      fun items hitems => hitems
  | case15 depth p c' cs h1 h2 h3 ih =>
    obtain ⟨body, hbody, rfl⟩ := keep_eq_ok_some.1 h
    have hslash : c' ≠ '\\' := by
      rintro rfl
      cases cs with
      | nil => cases hbody
      | cons x xs => exact h2 x xs rfl rfl
    exact splits_item (i := .literal false c' false) (ih hbody trivial)
      ⟨fun _ => hslash, fun _ => head?_of_readBody hbody ▸ head?_ne h3⟩ fun items hitems => hitems
  | case16 depth p cs ih =>
    obtain ⟨body, hbody, rfl⟩ := keep_eq_ok_some.1 h
    exact splits_item (i := .char '{') (ih hbody trivial) (by simp [Item.Stands]) fun items hitems => hitems
  | case18 depth p cs ih =>
    obtain ⟨body, hbody, rfl⟩ := keep_eq_ok_some.1 h
    exact splits_item (i := .char '}') (ih hbody trivial) (by simp [Item.Stands]) fun items hitems => hitems
  | case19 depth p c' cs h1 h2 h3 h4 h5 h6 h7 h8 h9 ih =>
    obtain ⟨body, hbody, rfl⟩ := keep_eq_ok_some.1 h
    by_cases hc : c' = '"' ∨ c' = '`'
    · rw [if_pos hc] at hbody ih
      exact splits_string (ih hbody hc) fun t items hitems => hitems
    · rw [if_neg hc] at hbody ih
      have hsingle : c' ≠ '\'' := by
        rintro rfl
        cases cs with
        | nil => cases hbody
        | cons x xs => exact h6 x xs rfl rfl
      have hclose : c' ≠ '}' := by
        rintro rfl
        cases depth with
        | zero => exact h8 rfl rfl
        | succ depth => exact h9 depth rfl rfl
      have hmark : c' = '/' → body.head?.or (some '}') ≠ some '/' ∧ body.head?.or (some '}') ≠ some '*' := by
        rintro rfl
        rw [head?_of_readBody hbody]
        exact ⟨head?_ne fun rest => h1 rest rfl, head?_ne fun rest => h2 rest rfl⟩
      obtain ⟨hdouble, hback⟩ := not_or.1 hc
      refine splits_item (i := .char c') (ih hbody trivial) ⟨hdouble, hback, hsingle, hmark⟩ fun items hitems => ?_
      rw [List.flatMap_cons]
      exact (depthAfter_char h7 hclose depth _).trans hitems

end HotReload.Scan
