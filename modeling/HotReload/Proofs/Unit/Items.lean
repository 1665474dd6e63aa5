import HotReload.Proofs.Unit.Reading

/-! # Items: the pieces in which a text is read

    Trivia and bodies are read item by item: a string, a character literal, a comment,
    or a character that begins none of these.  Where an item ends depends on one
    character after it at most.

    The first two sections say what the items are.  The third is about texts of which a
    part has been read already, so that they begin inside of a comment or a string: such
    a text leads back to code and goes on there with items. -/

namespace HotReload.Scan

/-! ## Section 1 - literals and comments -/

/-- What follows the mark that opens a block comment, up to and with the mark that closes it. -/
inductive Nested : List Char → Prop where
  | close : Nested ['*', '/']
  | comment {inner rest : List Char} (hinner : Nested inner) (hrest : Nested rest) :
      Nested ('/' :: '*' :: (inner ++ rest))
  | char {c : Char} {rest : List Char} (hrest : Nested rest)
      (hopen : ¬ (c = '/' ∧ rest.head? = some '*')) (hclose : ¬ (c = '*' ∧ rest.head? = some '/')) :
      Nested (c :: rest)

/-- What follows the quote that opens a string, up to and with the quote that closes it.  A backslash hides the
    character after it. -/
inductive Quoted (quote : Char) : List Char → Prop where
  | close : Quoted quote [quote]
  | hidden {c : Char} {rest : List Char} (hrest : Quoted quote rest) : Quoted quote ('\\' :: c :: rest)
  | char {c : Char} {rest : List Char} (hrest : Quoted quote rest) (hquote : c ≠ quote) (hslash : c ≠ '\\') :
      Quoted quote (c :: rest)

theorem Nested.head?_append {text : List Char} (h : Nested text) (rest : List Char) :
    (text ++ rest).head? = text.head? := by
  cases h <;> rfl

/-! ## Section 2 - items -/

/-- A piece of a text, as the readers take it. -/
inductive Item where
  /-- A character that begins no other item. -/
  | char (c : Char)
  /-- A string, with its quote and what follows it. -/
  | string (quote : Char) (text : List Char)
  /-- A character behind a quote.  It may have a backslash before it, and it takes a quote after it along. -/
  | literal (escaped : Bool) (c : Char) (closed : Bool)
  /-- A comment up to the end of its line, which does not belong to it. -/
  | lineComment (text : List Char)
  | blockComment (text : List Char)
  deriving DecidableEq, Repr

namespace Item

/-- The characters of an item. -/
def text : Item → List Char
  | char c => [c]
  | string quote text => quote :: text
  | literal escaped c closed =>
    '\'' :: ((if escaped then ['\\'] else []) ++ c :: (if closed then ['\''] else []))
  | lineComment text => '/' :: '/' :: text
  | blockComment text => '/' :: '*' :: text

/-- Whether an item stands before a given character, or before the end of the text. -/
def Stands : Item → Option Char → Prop
  | char c, next =>
    c ≠ '"' ∧ c ≠ '`' ∧ c ≠ '\'' ∧ (c = '/' → next ≠ some '/' ∧ next ≠ some '*')
  | string quote text, _ => (quote = '"' ∨ quote = '`') ∧ Quoted quote text
  | literal escaped c closed, next => (escaped = false → c ≠ '\\') ∧ (closed = false → next ≠ some '\'')
  | lineComment text, next => '\n' ∉ text ∧ (next = none ∨ next = some '\n')
  | blockComment text, _ => Nested text

/-- Whether an item is a blank or a comment. -/
def isTrivia : Item → Bool
  | char c => isBlank c
  | lineComment _ | blockComment _ => true
  | _ => false

/-- What an item adds to the code: literals and comments are none of it. -/
def code : Item → List Char
  | char c => [c]
  | _ => []

end Item

/-- The text of items one after the other. -/
def spell (items : List Item) : List Char := items.flatMap Item.text

@[simp] theorem spell_nil : spell [] = [] := rfl

@[simp] theorem spell_cons (i : Item) (items : List Item) : spell (i :: items) = i.text ++ spell items := rfl

@[simp] theorem spell_append (a b : List Item) : spell (a ++ b) = spell a ++ spell b := List.flatMap_append

/-- Whether items stand one after the other before a given character, or before the end of the text. -/
def Fits : List Item → Option Char → Prop
  | [], _ => True
  | i :: items, next => i.Stands ((spell items).head?.or next) ∧ Fits items next

theorem fits_append {a b : List Item} {next : Option Char} :
    Fits (a ++ b) next ↔ Fits a ((spell b).head?.or next) ∧ Fits b next := by
  induction a with
  | nil => simp [Fits]
  | cons i items ih =>
    rw [List.cons_append, Fits, Fits, ih, spell_append, List.head?_append, Option.or_assoc, and_assoc]

/-- How deep in braces a code ends that begins at a depth.  There is none if a brace closes more than is open. -/
def depthAfter : Nat → List Char → Option Nat
  | depth, [] => some depth
  | depth, '{' :: cs => depthAfter (depth + 1) cs
  | 0, '}' :: _ => none
  | depth + 1, '}' :: cs => depthAfter depth cs
  | depth, _ :: cs => depthAfter depth cs

/-- A text of blanks and comments, before a given character or the end of the text. -/
def IsTrivia (text : List Char) (next : Option Char) : Prop :=
  ∃ items, spell items = text ∧ Fits items next ∧ ∀ i ∈ items, i.isTrivia = true

/-- A text that stands in braces as a body: read item by item together with the brace that follows it, this
    brace is the first to close more than has been opened. -/
def IsBody (text : List Char) : Prop :=
  ∃ items, spell items = text ∧ Fits items (some '}') ∧ depthAfter 0 (items.flatMap Item.code) = some 0

/-! ## Section 3 - texts that have been begun -/

/-- What closes as many block comments as are open. -/
inductive Closings : Nat → List Char → Prop where
  | zero : Closings 0 []
  | succ {depth : Nat} {a b : List Char} (ha : Nested a) (hb : Closings depth b) : Closings (depth + 1) (a ++ b)

/-- What leads from a mode back to code before a given character, or before the end of the text. -/
def Mode.Ends : Mode → List Char → Option Char → Prop
  | .code, text, _ => text = []
  | .lineComment, text, next => '\n' ∉ text ∧ (next = none ∨ next = some '\n')
  | .blockComment _ depth, text, _ => 0 < depth ∧ Closings depth text
  | .string _ quote, text, _ => (quote = '"' ∨ quote = '`') ∧ Quoted quote text

/-- A text that is begun in a mode: it leads back to code, and goes on there with items that satisfy `P`. -/
def Mode.Splits (m : Mode) (text : List Char) (next : Option Char) (P : List Item → Prop) : Prop :=
  ∃ before items, text = before ++ spell items ∧ m.Ends before ((spell items).head?.or next) ∧
    Fits items next ∧ P items

/-- The modes that the readers come into. -/
def Mode.Proper : Mode → Prop
  | .blockComment _ depth => 0 < depth
  | .string _ quote => quote = '"' ∨ quote = '`'
  | _ => True

/-- A mark of two characters does not begin with `c` before a text that does not go on with its other half. -/
theorem noMark {c x y : Char} {cs : List Char} (h : ¬ (c = x ∧ cs.head? = some y)) :
    ∀ rest, c = x → cs = y :: rest → False := by
  rintro rest rfl rfl
  exact h ⟨rfl, rfl⟩

theorem head?_ne {y : Char} {cs : List Char} (h : ∀ rest, cs = y :: rest → False) : cs.head? ≠ some y := by
  intro hy
  obtain ⟨rest, rfl⟩ := List.head?_eq_some_iff.1 hy
  exact h rest rfl

theorem not_mark_of_append {c x y : Char} {a b : List Char} (h : ∀ rest, c = x → a ++ b = y :: rest → False) :
    ¬ (c = x ∧ a.head? = some y) := by
  rintro ⟨rfl, hy⟩
  obtain ⟨rest, rfl⟩ := List.head?_eq_some_iff.1 hy
  exact h (rest ++ b) rfl rfl

theorem Closings.opened {depth : Nat} {text : List Char} (h : Closings (depth + 2) text) :
    Closings (depth + 1) ('/' :: '*' :: text) := by
  cases h with
  | succ ha hb =>
    cases hb with
    | succ hb hc => simpa using Closings.succ (Nested.comment ha hb) hc

theorem Closings.char {depth : Nat} {c : Char} {text : List Char} (h : Closings (depth + 1) text)
    (hopen : ¬ (c = '/' ∧ text.head? = some '*')) (hclose : ¬ (c = '*' ∧ text.head? = some '/')) :
    Closings (depth + 1) (c :: text) := by
  cases h with
  | @succ _ a b ha hb =>
    rw [ha.head?_append] at hopen hclose
    exact .succ (.char ha hopen hclose) hb

section
variable {text : List Char} {next : Option Char} {P Q : List Item → Prop}

theorem splits_nil (hP : P []) : Mode.code.Splits [] next P := ⟨[], [], rfl, rfl, trivial, hP⟩

/-- An item in code leads to code. -/
theorem splits_item {i : Item} (h : Mode.code.Splits text next P) (hi : i.Stands (text.head?.or next))
    (hP : ∀ items, P items → Q (i :: items)) : Mode.code.Splits (i.text ++ text) next Q := by
  obtain ⟨_, items, rfl, rfl, hfits, hitems⟩ := h
  exact ⟨[], i :: items, rfl, rfl, ⟨hi, hfits⟩, hP items hitems⟩

theorem splits_lineComment (h : Mode.lineComment.Splits text next P)
    (hP : ∀ t items, P items → Q (.lineComment t :: items)) : Mode.code.Splits ('/' :: '/' :: text) next Q := by
  obtain ⟨before, items, rfl, hends, hfits, hitems⟩ := h
  exact ⟨[], .lineComment before :: items, rfl, rfl, ⟨hends, hfits⟩, hP before items hitems⟩

theorem splits_blockComment {opened : Place} (h : (Mode.blockComment opened 1).Splits text next P)
    (hP : ∀ t items, P items → Q (.blockComment t :: items)) : Mode.code.Splits ('/' :: '*' :: text) next Q := by
  obtain ⟨before, items, rfl, ⟨-, hends⟩, hfits, hitems⟩ := h
  have hnested : Nested before := by
    cases hends with
    | succ ha hb =>
      cases hb
      rwa [List.append_nil]
  exact ⟨[], .blockComment before :: items, rfl, rfl, ⟨hnested, hfits⟩, hP before items hitems⟩

theorem splits_string {opened : Place} {quote : Char} (h : (Mode.string opened quote).Splits text next P)
    (hP : ∀ t items, P items → Q (.string quote t :: items)) : Mode.code.Splits (quote :: text) next Q := by
  obtain ⟨before, items, rfl, hends, hfits, hitems⟩ := h
  exact ⟨[], .string quote before :: items, rfl, rfl, ⟨hends, hfits⟩, hP before items hitems⟩

theorem splits_line_char {c : Char} (hc : c ≠ '\n') (h : Mode.lineComment.Splits text next P) :
    Mode.lineComment.Splits (c :: text) next P := by
  obtain ⟨before, items, rfl, ⟨hline, hnext⟩, hitems⟩ := h
  exact ⟨c :: before, items, rfl, ⟨by simp [hline, Ne.symm hc], hnext⟩, hitems⟩

/-- A line end leads from a comment to code, where it is a character by itself. -/
theorem splits_line_end (h : Mode.code.Splits text next P) (hP : ∀ items, P items → Q (.char '\n' :: items)) :
    Mode.lineComment.Splits ('\n' :: text) next Q := by
  obtain ⟨_, items, rfl, rfl, hfits, hitems⟩ := h
  have hstands : (Item.char '\n').Stands ((spell items).head?.or next) := by simp [Item.Stands]
  exact ⟨[], .char '\n' :: items, rfl, ⟨by simp, .inr rfl⟩, ⟨hstands, hfits⟩, hP items hitems⟩

theorem splits_block_open {opened : Place} {depth : Nat} (hdepth : 0 < depth)
    (h : (Mode.blockComment opened (depth + 1)).Splits text next P) :
    (Mode.blockComment opened depth).Splits ('/' :: '*' :: text) next P := by
  obtain ⟨before, items, rfl, ⟨-, hends⟩, hitems⟩ := h
  obtain ⟨depth, rfl⟩ := Nat.exists_eq_add_of_lt hdepth
  rw [Nat.zero_add] at hends ⊢
  exact ⟨'/' :: '*' :: before, items, rfl, ⟨by omega, hends.opened⟩, hitems⟩

theorem splits_block_close {opened : Place} {depth : Nat} (hdepth : 0 < depth)
    (h : (if depth ≤ 1 then Mode.code else .blockComment opened (depth - 1)).Splits text next P) :
    (Mode.blockComment opened depth).Splits ('*' :: '/' :: text) next P := by
  obtain ⟨before, items, rfl, hends, hitems⟩ := h
  refine ⟨'*' :: '/' :: before, items, rfl, ⟨hdepth, ?_⟩, hitems⟩
  split at hends
  · obtain rfl : depth = 1 := by omega
    obtain rfl : before = [] := hends
    exact .succ .close .zero
  · have hclosings := Closings.succ Nested.close hends.2
    rwa [Nat.sub_add_cancel hdepth] at hclosings

theorem splits_block_char {opened : Place} {depth : Nat} {c : Char}
    (h : (Mode.blockComment opened depth).Splits text next P)
    (hopen : ¬ (c = '/' ∧ text.head? = some '*')) (hclose : ¬ (c = '*' ∧ text.head? = some '/')) :
    (Mode.blockComment opened depth).Splits (c :: text) next P := by
  obtain ⟨before, items, rfl, ⟨hdepth, hends⟩, hitems⟩ := h
  obtain ⟨depth, rfl⟩ := Nat.exists_eq_add_of_lt hdepth
  rw [Nat.zero_add] at hends ⊢
  have hbefore : (before ++ spell items).head? = before.head? := by
    cases hends with
    | succ ha hb => rw [List.append_assoc, ha.head?_append, ha.head?_append]
  rw [hbefore] at hopen hclose
  exact ⟨c :: before, items, rfl, ⟨by omega, hends.char hopen hclose⟩, hitems⟩

theorem splits_string_hidden {opened : Place} {quote c : Char}
    (h : (Mode.string opened quote).Splits text next P) :
    (Mode.string opened quote).Splits ('\\' :: c :: text) next P := by
  obtain ⟨before, items, rfl, ⟨hquote, hends⟩, hitems⟩ := h
  exact ⟨'\\' :: c :: before, items, rfl, ⟨hquote, .hidden hends⟩, hitems⟩

theorem splits_string_close {opened : Place} {quote : Char} (hquote : quote = '"' ∨ quote = '`')
    (h : Mode.code.Splits text next P) : (Mode.string opened quote).Splits (quote :: text) next P := by
  obtain ⟨_, items, rfl, rfl, hitems⟩ := h
  exact ⟨[quote], items, rfl, ⟨hquote, .close⟩, hitems⟩

theorem splits_string_char {opened : Place} {quote c : Char} (hc : c ≠ quote) (hslash : c ≠ '\\')
    (h : (Mode.string opened quote).Splits text next P) :
    (Mode.string opened quote).Splits (c :: text) next P := by
  obtain ⟨before, items, rfl, ⟨hquote, hends⟩, hitems⟩ := h
  exact ⟨c :: before, items, rfl, ⟨hquote, .char hends hc hslash⟩, hitems⟩

end

end HotReload.Scan
