import HotReload.Body.Lexer
import HotReload.Proofs.Unit.Grammar

/-! # Where the words of a body stand

    Every reader of words takes characters off a cursor, and moves the place of the cursor
    by each of them.  So the places that it tells, of words as well as of what is no word,
    are places of the body: each lies behind some of its first characters.

    There is one exception.  Behind an opening backquote a carriage return counts as the
    end of a line, and it counts as such nowhere else.  With a line feed behind it the two
    end one line between them; but if it is alone then all that follows is told a line too
    far down.  A body in which that does not happen is called *ruled* here.

    A word takes at least one character, and the last one is the end of the body. -/

namespace HotReload

/-! ## Section 1 - cursors in a text -/

/-- A place of a text lies behind some of its first characters. -/
def Place.IsOf (p : Place) (text : List Char) : Prop := ∃ read, read <+: text ∧ p = .behind read

theorem Place.isOf_start (text : List Char) : Place.start.IsOf text := ⟨[], List.nil_prefix, rfl⟩

namespace Cursor

/-- One cursor is another one after some characters. -/
def Reaches (c d : Cursor) : Prop := ∃ text, c.Reads text d

namespace Reaches
variable {c d e : Cursor}

theorem refl (c : Cursor) : c.Reaches c := ⟨[], .refl c⟩

theorem trans (h : c.Reaches d) (h' : d.Reaches e) : c.Reaches e := by
  obtain ⟨a, ha⟩ := h
  obtain ⟨b, hb⟩ := h'
  exact ⟨a ++ b, ha.trans hb⟩

theorem cons {p : Place} {x : Char} {xs : List Char} (h : Reaches ⟨p.next x, xs⟩ d) : Reaches ⟨p, x :: xs⟩ d := by
  obtain ⟨text, htext⟩ := h
  exact ⟨x :: text, htext.cons⟩

theorem next (p : Place) (x : Char) (xs : List Char) : Reaches ⟨p, x :: xs⟩ ⟨p.next x, xs⟩ := (refl _).cons

theorem run (p : Place) (text rest : List Char) : Reaches ⟨p, text ++ rest⟩ ⟨p.advance text, rest⟩ := ⟨text, rfl, rfl⟩

theorem take (p : Place) (n : Nat) (cs : List Char) : Reaches ⟨p, cs⟩ ⟨p.advance (cs.take n), cs.drop n⟩ :=
  ⟨cs.take n, (List.take_append_drop n cs).symm, rfl⟩

end Reaches

/-- A cursor in a text.  It stands where it has come to by reading; or the reading was given up, and then
    nothing is left and it stands at a place of the text. -/
inductive Sits (text : List Char) : Cursor → Prop
  | reading {c : Cursor} (h : (ofText text).Reaches c) : Sits text c
  | ended {p : Place} (h : p.IsOf text) : Sits text ⟨p, []⟩

namespace Sits
variable {text : List Char} {c d : Cursor}

theorem isOf (h : Sits text c) : c.place.IsOf text := by
  cases h with
  | reading h =>
    obtain ⟨read, htext, hplace⟩ := h
    refine ⟨read, ⟨c.rest, htext.symm⟩, ?_⟩
    rw [hplace, ofText, Place.start_eq_behind, Place.advance_behind, List.nil_append]
  | ended h => exact h

theorem reaches (h : Sits text c) (hd : c.Reaches d) : Sits text d := by
  cases h with
  | reading h => exact .reading (h.trans hd)
  | ended h =>
    obtain ⟨run, hrest, hplace⟩ := hd
    obtain ⟨rfl, hnil⟩ := List.append_eq_nil_iff.1 hrest.symm
    obtain ⟨q, rest⟩ := d
    cases hnil
    cases hplace
    exact .ended h

end Sits

end Cursor

namespace Body.Lexer

open Cursor

/-! ## Section 2 - what stands between words, and numbers -/

theorem reaches_spanning (test : Char → Bool) (c : Cursor) : c.Reaches (spanning test c).2 :=
  ⟨(spanning test c).1, (List.takeWhile_append_dropWhile ..).symm, rfl⟩

theorem reaches_skipBlock (depth : Nat) (p : Place) (cs : List Char) :
    Reaches ⟨p, cs⟩ (skipBlock depth p cs) := by
  fun_induction skipBlock depth p cs with
  | case1 depth p => exact .refl _
  | case2 depth p cs ih => exact ih.cons.cons
  | case3 depth p cs hlast => exact (Reaches.next _ _ _).cons
  | case4 depth p cs hlast ih => exact ih.cons.cons
  | case5 depth p c cs _ _ ih => exact ih.cons

theorem reaches_skipOne {c d : Cursor} (h : skipOne? c = some d) : c.Reaches d := by
  obtain ⟨p, rest⟩ := c
  unfold skipOne? at h
  dsimp only at h
  split at h
  · cases h
    exact reaches_spanning _ _
  · cases h
    exact (reaches_skipBlock 1 _ _).cons.cons
  · split at h
    · cases h
      exact .next p _ _
    · cases h
  · cases h

theorem reaches_digitRun (test : Char → Bool) (c : Cursor) : c.Reaches (digitRun test c).2 := reaches_spanning _ c

theorem reaches_exponent {c : Cursor} {found : Int × Cursor} (h : exponent? c = some found) : c.Reaches found.2 := by
  obtain ⟨p, rest⟩ := c
  unfold exponent? at h
  dsimp only at h
  split at h
  · split at h
    · cases h
      exact (reaches_digitRun _ _).cons
    · split at h
      · obtain ⟨n, -, rfl⟩ := Option.map_eq_some_iff.1 h
        exact (reaches_digitRun _ _).cons.cons
      · cases h
  · cases h

theorem reaches_decimals {c : Cursor} {found : List Char × Cursor} (h : decimals? c = some found) :
    c.Reaches found.2 := by
  obtain ⟨p, rest⟩ := c
  unfold decimals? at h
  dsimp only at h
  split at h
  · split at h
    · cases h
      exact (reaches_digitRun _ _).cons
    · split at h
      · cases h
      · cases h
        exact .next p _ _
  · cases h
  · cases h

/-- A number in base ten ends behind its first run of digits, or goes on from there. -/
theorem reaches_behind_digits (negative : Bool) (c : Cursor) :
    (digitRun Char.isDigit c).2.Reaches (readNumber.decimal negative c).2 := by
  unfold readNumber.decimal
  dsimp only
  split
  · next places afterPlaces hplaces =>
    have hdecimals := reaches_decimals hplaces
    split
    · next e after he => exact hdecimals.trans (reaches_exponent he)
    · exact hdecimals
  · split
    · next e after he => exact reaches_exponent he
    · split <;> split <;> exact .refl _

theorem reaches_decimal (negative : Bool) (c : Cursor) : c.Reaches (readNumber.decimal negative c).2 :=
  (reaches_digitRun Char.isDigit c).trans (reaches_behind_digits negative c)

theorem reaches_readNumber (negative : Bool) (c : Cursor) : c.Reaches (readNumber negative c).2 := by
  obtain ⟨p, rest⟩ := c
  unfold readNumber
  dsimp only
  split
  · split
    · split
      · split <;> exact (reaches_digitRun _ _).cons.cons
      · exact (reaches_digitRun _ _).cons.cons
    · exact reaches_decimal negative _
  · exact reaches_decimal negative _

/-- A number takes its first digit. -/
theorem reaches_readNumber_next (negative : Bool) {x : Char} (h : x.isDigit = true) (p : Place) (cs : List Char) :
    Reaches ⟨p.next x, cs⟩ (readNumber negative ⟨p, x :: cs⟩).2 := by
  have hrun : (digitRun Char.isDigit ⟨p, x :: cs⟩).2 = (digitRun Char.isDigit ⟨p.next x, cs⟩).2 := by
    simp [digitRun, spanning, h]
  have hdecimal : Reaches ⟨p.next x, cs⟩ (readNumber.decimal negative ⟨p, x :: cs⟩).2 :=
    (reaches_digitRun _ _).trans (hrun ▸ reaches_behind_digits negative ⟨p, x :: cs⟩)
  unfold readNumber
  dsimp only
  split
  · next heq =>
    cases heq
    split
    · split
      · split <;> exact (reaches_digitRun _ _).cons
      · exact (reaches_digitRun _ _).cons
    · exact hdecimal
  · exact hdecimal

/-! ## Section 3 - strings -/

/-- What a string reader finds is ahead of where it begins; or it is a fault of the opening. -/
def StringEnd.Ahead (opening : Place) (c : Cursor) : StringEnd → Prop
  | .closed _ after => c.Reaches after
  | .opened _ after => c.Reaches after
  | .failed _ place => place = opening ∨ ∃ d, c.Reaches d ∧ d.place = place

namespace StringEnd.Ahead
variable {opening : Place} {c d : Cursor} {r : StringEnd}

theorem back (h : r.Ahead opening d) (hd : c.Reaches d) : r.Ahead opening c := by
  cases r with
  | closed t after => exact hd.trans h
  | opened t after => exact hd.trans h
  | failed fault place =>
    rcases h with rfl | ⟨e, he, rfl⟩
    · exact .inl rfl
    · exact .inr ⟨e, hd.trans he, rfl⟩

theorem push (h : r.Ahead opening c) (x : Char) : (r.push x).Ahead opening c := by
  cases r <;> exact h

end StringEnd.Ahead

/-- A numeric escape fails at one of its characters, or right behind them. -/
theorem reaches_numericEscape {letter : Char} {count : Nat} {c : Cursor} {fault : LexFault × Place}
    (h : numericEscape letter count c = .error fault) : ∃ d, c.Reaches d ∧ d.place = fault.2 := by
  obtain ⟨p, rest⟩ := c
  unfold numericEscape at h
  dsimp only at h
  split at h
  · split at h
    · cases h
    · cases h
      exact ⟨_, .take p (count - 1) rest, rfl⟩
  · split at h
    · cases h
      exact ⟨_, .take p _ rest, rfl⟩
    · cases h
      obtain ⟨after, hafter⟩ := (List.takeWhile_prefix (fun d => (digitValue? d).isSome) (l := rest.take count)).trans
        (List.take_prefix count rest)
      refine ⟨⟨_, after⟩, ?_, rfl⟩
      conv => lhs; rw [← hafter]
      exact .run p _ after

theorem ahead_readString (isText : Bool) (quote : Char) (opening p : Place) (cs : List Char) :
    (readString isText quote opening p cs).Ahead opening ⟨p, cs⟩ := by
  fun_induction readString isText quote opening p cs
  case case1 | case8 | case9 => exact .inl rfl
  case case3 | case4 | case5 => exact .next _ _ _
  case case6 ih => exact ih.back (.next _ _ _)
  case case7 ih | case14 ih => exact (ih.back (.next _ _ _)).push _
  case case2 ih | case10 ih => exact (ih.back (Reaches.next _ _ _).cons).push _
  case case11 => exact .inr ⟨_, .next _ _ _, rfl⟩
  case case12 hescape =>
    obtain ⟨d, hd, hplace⟩ := reaches_numericEscape hescape
    exact .inr ⟨d, hd.cons.cons, hplace⟩
  case case13 ih => exact (ih.back (Reaches.take _ _ _).cons.cons).push _

/-- The first line end of a text in backquotes, if it is not a carriage return alone. -/
theorem reaches_skipFirstLineEnd (p : Place) {cs : List Char}
    (h : ∀ after, cs = '\r' :: after → after.head? = some '\n') : Reaches ⟨p, cs⟩ (skipFirstLineEnd ⟨p, cs⟩) := by
  unfold skipFirstLineEnd
  dsimp only
  split
  · exact (Reaches.next _ _ _).cons
  · next after hlone =>
    obtain ⟨rest, rfl⟩ : ∃ rest, after = '\n' :: rest := by
      cases after with
      | nil => cases h [] rfl
      | cons x rest => exact ⟨rest, by rw [Option.some.inj (h _ rfl)]⟩
    exact absurd rfl (hlone rest)
  · exact .next _ _ _
  · exact .refl _

/-! ## Section 4 - words -/

section words
variable {text : List Char}

/-- In a ruled text no carriage return stands alone behind a backquote. -/
def Ruled (text : List Char) : Prop := ∀ before after, text = before ++ '`' :: '\r' :: after → after.head? = some '\n'

theorem Ruled.behind_backquote (h : Ruled text) {p : Place} {cs : List Char} (hc : Sits text ⟨p, '`' :: cs⟩) :
    ∀ after, cs = '\r' :: after → after.head? = some '\n' := by
  rintro after rfl
  cases hc with
  | reading hreads =>
    obtain ⟨read, htext, -⟩ := hreads
    exact h read after htext

/-- A word of a text, with the cursor behind it. -/
structure IsWordOf (text : List Char) (found : Lexeme × Cursor) : Prop where
  place : found.1.place.IsOf text
  sits : Sits text found.2

theorem isWordOf_of_reaches {c d : Cursor} (hc : Sits text c) (hd : c.Reaches d) (token : Token) :
    IsWordOf text (⟨token, c.place⟩, d) :=
  ⟨hc.isOf, hc.reaches hd⟩

theorem isWordOf_stringWord {place : Place} {c d : Cursor} {r : StringEnd} (hplace : place.IsOf text)
    (hc : Sits text c) (hd : Sits text d) (hr : r.Ahead place d) : IsWordOf text (stringWord place c r) := by
  cases r with
  | closed t after => exact ⟨hplace, hd.reaches hr⟩
  | opened t after => exact ⟨hplace, hd.reaches hr⟩
  | failed fault at_ =>
    refine ⟨?_, .ended hc.isOf⟩
    rcases hr with rfl | ⟨e, he, rfl⟩
    · exact hplace
    · exact (hd.reaches he).isOf

theorem isWordOf_readChar {p : Place} {cs : List Char} (hc : Sits text ⟨p, '\'' :: cs⟩) :
    IsWordOf text (readChar ⟨p, '\'' :: cs⟩) := by
  unfold readChar
  dsimp only
  split
  · next hrest =>
    cases hrest
    exact isWordOf_of_reaches hc (Reaches.next _ _ _).cons _
  · next hrest =>
    cases hrest
    have hahead := (ahead_readString false '\'' p (p.next '\'') _).back (.next p '\'' cs)
    split
    · next x after hstring =>
      rw [hstring] at hahead
      exact isWordOf_of_reaches hc hahead _
    · next t after _ hstring =>
      rw [hstring] at hahead
      exact isWordOf_of_reaches hc hahead _
    · exact isWordOf_stringWord hc.isOf hc hc hahead
  · next hrest => cases hrest

theorem reaches_of_isPrefixOf {p : Place} {cs : List Char} {s : String} (h : s.toList.isPrefixOf cs = true) :
    Reaches ⟨p, cs⟩ ⟨p.advance s.toList, cs.drop s.length⟩ := by
  have hprefix := List.isPrefixOf_iff_prefix.1 h
  have htake : cs.take s.length = s.toList := by
    rw [← String.length_toList]
    exact (List.prefix_iff_eq_take.1 hprefix).symm
  rw [← htake]
  exact .take p s.length cs

theorem reaches_spelled {spellings : List String} {p : Place} {cs : List Char} {s : String}
    (h : spelled? spellings cs = some s) : Reaches ⟨p, cs⟩ ⟨p.advance s.toList, cs.drop s.length⟩ :=
  reaches_of_isPrefixOf (List.find?_some (p := fun s : String => s.toList.isPrefixOf cs) h)

theorem reaches_signAt {p : Place} {cs : List Char} {s : String} (h : signAt? cs = some s) :
    Reaches ⟨p, cs⟩ ⟨p.advance s.toList, cs.drop s.length⟩ := by
  unfold signAt? at h
  split at h
  · next hin =>
    cases h
    exact reaches_of_isPrefixOf (Bool.and_eq_true_iff.1 hin).1
  · exact reaches_spelled h

theorem readWord.place_reservedSign (s : String) (p : Place) : (reservedSign s p).place = p := by
  unfold reservedSign
  split <;> rfl

theorem isWordOf_readWord (hruled : Ruled text) (negatable : Bool) {c : Cursor} (hc : Sits text c) :
    IsWordOf text (readWord negatable c) := by
  obtain ⟨p, rest⟩ := c
  unfold readWord
  dsimp only
  split
  · exact isWordOf_of_reaches hc (.refl _) _
  · next x cs =>
    split
    · exact isWordOf_of_reaches hc (reaches_readNumber false _) _
    split
    · exact isWordOf_of_reaches hc (reaches_readNumber true _).cons _
    split
    · exact isWordOf_of_reaches hc (reaches_spanning isNamePart _) _
    split
    · exact isWordOf_stringWord hc.isOf hc (hc.reaches (.next p x cs)) (ahead_readString false '"' p _ _)
    split
    · next hx =>
      subst hx
      have hfirst := (hc.reaches (.next p '`' cs)).reaches
        (reaches_skipFirstLineEnd (p.next '`') (hruled.behind_backquote hc))
      exact isWordOf_stringWord hc.isOf hc hfirst (ahead_readString true '`' p _ _)
    split
    · next hx =>
      subst hx
      exact isWordOf_readChar hc
    · have hreserved : ∀ s d, Reaches ⟨p, x :: cs⟩ d → IsWordOf text (readWord.reservedSign s p, d) :=
        fun s d hd => ⟨(readWord.place_reservedSign s p).symm ▸ hc.isOf, hc.reaches hd⟩
      split
      · next s hs =>
        split
        · next t ht =>
          split
          · exact isWordOf_of_reaches hc (reaches_signAt ht) _
          · exact hreserved s _ (reaches_spelled hs)
        · exact hreserved s _ (reaches_spelled hs)
      · split
        · next t ht => exact isWordOf_of_reaches hc (reaches_signAt ht) _
        · exact isWordOf_of_reaches hc (.next p x cs) _

/-- Behind the brace that ends an expression in a text, the rest of the text is one more word. -/
theorem isOf_rest {c d : Cursor} {inText : Bool} {more : List Lexeme} (hc : Sits text c)
    (h : (if inText = true then
        match stringWord c.place c (readString true '`' c.place c.place c.rest) with
        | (lexeme, after) => ([lexeme], after)
      else ([], c)) = (more, d)) : (∀ lexeme ∈ more, lexeme.place.IsOf text) ∧ Sits text d := by
  have hstring := isWordOf_stringWord hc.isOf hc hc (ahead_readString true '`' c.place c.place c.rest)
  split at h
  · cases h
    exact ⟨fun lexeme hmem => List.mem_singleton.1 hmem ▸ hstring.place, hstring.sits⟩
  · cases h
    exact ⟨fun _ hmem => (nomatch hmem), hc⟩

theorem isOf_wordsFrom (hruled : Ruled text) (negatable : Bool) (stack : List Nat) {c : Cursor} (hc : Sits text c) :
    ∀ lexeme ∈ wordsFrom negatable stack c, lexeme.place.IsOf text := by
  fun_induction wordsFrom negatable stack c
  case case1 hskip _ ih => exact ih (hc.reaches (reaches_skipOne hskip))
  case case2 hskip _ =>
    intro lexeme hmem
    rw [List.mem_singleton.1 hmem]
    exact (hc.reaches (reaches_skipOne hskip)).isOf
  case case3 negatable _ _ _ _ _ hword _ _ _ _ _ hrest _ _ ih =>
    have hfound := hword ▸ isWordOf_readWord hruled negatable hc
    obtain ⟨hmore, hafter⟩ := isOf_rest hfound.sits hrest
    intro lexeme hmem
    rcases List.mem_append.1 hmem with hhere | hlater
    · rcases List.mem_cons.1 hhere with rfl | htext
      · exact hfound.place
      · exact hmore lexeme htext
    · exact ih hafter lexeme hlater
  case case4 negatable _ _ _ _ _ hword _ _ _ _ _ hrest _ =>
    have hfound := hword ▸ isWordOf_readWord hruled negatable hc
    obtain ⟨hmore, -⟩ := isOf_rest hfound.sits hrest
    intro lexeme hmem
    rcases List.mem_cons.1 hmem with rfl | htext
    · exact hfound.place
    · exact hmore lexeme htext

/-- Every word of a ruled body stands at a place of the body. -/
theorem isOf_words {body : String} (hruled : Ruled body.toList) :
    ∀ lexeme ∈ words body, lexeme.place.IsOf body.toList :=
  isOf_wordsFrom hruled true [] (.reading (.refl _))

end words

/-! ## Section 5 - the last word -/

/-- Words of which the last is the end of the body. -/
inductive Ended : List Lexeme → Prop
  | last {lexeme : Lexeme} (h : lexeme.token = .eof) : Ended [lexeme]
  | cons (lexeme : Lexeme) {more : List Lexeme} (h : Ended more) : Ended (lexeme :: more)

theorem Ended.append (front : List Lexeme) {more : List Lexeme} (h : Ended more) : Ended (front ++ more) := by
  induction front with
  | nil => exact h
  | cons lexeme front ih => exact .cons lexeme ih

theorem length_le_of_reaches {c d : Cursor} (h : c.Reaches d) : d.rest.length ≤ c.rest.length := by
  obtain ⟨text, htext⟩ := h
  exact htext.length_le

theorem length_stringWord_le {place : Place} {c d : Cursor} {r : StringEnd} (h : r.Ahead place d) :
    (stringWord place c r).2.rest.length ≤ d.rest.length := by
  cases r with
  | closed t after => exact length_le_of_reaches h
  | opened t after => exact length_le_of_reaches h
  | failed fault at_ => exact Nat.zero_le _

theorem length_skipFirstLineEnd_le (c : Cursor) : (skipFirstLineEnd c).rest.length ≤ c.rest.length := by
  obtain ⟨p, rest⟩ := c
  unfold skipFirstLineEnd
  dsimp only
  split
  · exact Nat.le_add_right _ 2
  · exact Nat.le_add_right _ 1
  · exact Nat.le_add_right _ 1
  · exact Nat.le_refl _

theorem length_readChar_lt (p : Place) (cs : List Char) :
    (readChar ⟨p, '\'' :: cs⟩).2.rest.length < cs.length + 1 := by
  have hahead := ahead_readString false '\'' p (p.next '\'') cs
  unfold readChar
  dsimp only
  split
  · next hrest =>
    cases hrest
    exact Nat.lt_add_of_pos_right Nat.two_pos
  · next hrest =>
    cases hrest
    split
    · next x after hstring =>
      rw [hstring] at hahead
      exact Nat.lt_succ_of_le (length_le_of_reaches hahead)
    · next t after _ hstring =>
      rw [hstring] at hahead
      exact Nat.lt_succ_of_le (length_le_of_reaches hahead)
    · exact Nat.lt_succ_of_le (length_stringWord_le hahead)
  · next hrest => cases hrest

theorem length_spelled_pos {spellings : List String} (h : ∀ s ∈ spellings, 0 < s.length) {cs : List Char} {s : String}
    (hs : spelled? spellings cs = some s) : 0 < s.length :=
  h s (List.mem_of_find?_eq_some hs)

theorem length_signAt_pos {cs : List Char} {s : String} (h : signAt? cs = some s) : 0 < s.length := by
  unfold signAt? at h
  split at h
  · cases h
    decide
  · exact length_spelled_pos (by decide) h

/-- A word takes at least one character. -/
theorem length_readWord_lt (negatable : Bool) (p : Place) (x : Char) (cs : List Char) :
    (readWord negatable ⟨p, x :: cs⟩).2.rest.length < cs.length + 1 := by
  have hsized : ∀ s : String, 0 < s.length → ((x :: cs).drop s.length).length < cs.length + 1 := by
    intro s hs
    rw [List.length_drop, List.length_cons]
    omega
  unfold readWord
  dsimp only
  split
  · next hdigit => exact Nat.lt_succ_of_le (length_le_of_reaches (reaches_readNumber_next false hdigit p cs))
  split
  · exact Nat.lt_succ_of_le (length_le_of_reaches (reaches_readNumber true ⟨p.next x, cs⟩))
  split
  · next hstart =>
    have hpart : isNamePart x = true := by
      simp only [isNameStart, isNamePart, Char.isAlphanum, Bool.or_eq_true, decide_eq_true_eq] at hstart ⊢
      rcases hstart with halpha | hline
      · exact .inl (.inl halpha)
      · exact .inr hline
    show ((x :: cs).dropWhile isNamePart).length < _
    rw [List.dropWhile_cons, if_pos hpart]
    exact Nat.lt_succ_of_le (List.dropWhile_sublist isNamePart).length_le
  split
  · exact Nat.lt_succ_of_le (length_stringWord_le (ahead_readString false '"' p _ _))
  split
  · have hstring := length_stringWord_le (c := ⟨p, x :: cs⟩) (ahead_readString true '`' p
      (skipFirstLineEnd ⟨p.next x, cs⟩).place (skipFirstLineEnd ⟨p.next x, cs⟩).rest)
    exact Nat.lt_succ_of_le (hstring.trans (length_skipFirstLineEnd_le ⟨p.next x, cs⟩))
  split
  · next hquote =>
    subst hquote
    exact length_readChar_lt p cs
  split
  · next s hs =>
    have hpos := length_spelled_pos (by decide) hs
    split
    · next t ht =>
      split
      · exact hsized t (length_signAt_pos ht)
      · exact hsized s hpos
    · exact hsized s hpos
  · split
    · next t ht => exact hsized t (length_signAt_pos ht)
    · exact Nat.lt_succ_self _

/-- The words of a body end with its end. -/
theorem ended_wordsFrom (negatable : Bool) (stack : List Nat) (c : Cursor) :
    Ended (wordsFrom negatable stack c) := by
  fun_induction wordsFrom negatable stack c
  case case1 ih => exact ih
  case case2 => exact .last rfl
  case case3 ih => exact (Ended.append _ ih).cons _
  case case4 negatable _ c _ lexeme after hword _ _ hopenings more behind hrest hlonger =>
    -- a word leaves as much as there was only at the end of the body
    have hle : behind.rest.length ≤ after.rest.length := by
      split at hrest
      · cases hrest
        exact length_stringWord_le (ahead_readString true '`' after.place after.place after.rest)
      · cases hrest
        exact Nat.le_refl _
    obtain ⟨p, rest⟩ := c
    cases rest with
    | nil =>
      cases hword
      cases hopenings
      cases hrest
      exact .last rfl
    | cons x cs =>
      have hlt := length_readWord_lt negatable p x cs
      rw [hword] at hlt
      exact absurd (Nat.lt_of_le_of_lt hle hlt) hlonger

end Body.Lexer

end HotReload
