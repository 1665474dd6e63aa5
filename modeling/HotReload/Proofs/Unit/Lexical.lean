import HotReload.Body.Lexer
import HotReload.Proofs.Unit.Grammar

/-! # Lexical: the pieces of a body by the rules of its language

    The language of bodies has rules of its own for where a literal ends.  In a text
    between backquotes a backslash stands for itself, and an escape between quotes may
    have digits.  The reader of bodies takes a backslash in backquotes for the mark of an
    escape, and of an escape it takes one character only.

    A body in which neither matters is taken whole.  It matters when a backslash hides a
    backquote, and when the quote that closes an escape with digits opens a literal of
    what stands behind it. -/

namespace HotReload.Scan

/-! ## Section 1 - pieces -/

/-- What follows the backquote that opens a text, up to and with the backquote that closes it.  Two backquotes
    stand for one of them, and a backslash for itself. -/
inductive Backquoted : List Char → Prop where
  | close : Backquoted ['`']
  | double {rest : List Char} (hrest : Backquoted rest) : Backquoted ('`' :: '`' :: rest)
  | char {c : Char} {rest : List Char} (hrest : Backquoted rest) (hquote : c ≠ '`') : Backquoted (c :: rest)

/-- A piece of a body by the rules of its language. -/
inductive Piece where
  /-- A character outside of literals and comments. -/
  | char (c : Char)
  /-- A string, with what follows its first quote. -/
  | string (text : List Char)
  /-- A text between backquotes, with what follows the first of them. -/
  | backquoted (text : List Char)
  /-- A character between quotes. -/
  | literal (c : Char)
  /-- An escape between quotes: the character behind its backslash, and its digits. -/
  | escape (c : Char) (digits : List Char)
  /-- A comment up to the end of its line, which does not belong to it. -/
  | lineComment (text : List Char)
  | blockComment (text : List Char)
  deriving DecidableEq, Repr

namespace Piece

/-- The characters of a piece. -/
def text : Piece → List Char
  | char c => [c]
  | string text => '"' :: text
  | backquoted text => '`' :: text
  | literal c => ['\'', c, '\'']
  | escape c digits => '\'' :: '\\' :: c :: (digits ++ ['\''])
  | lineComment text => '/' :: '/' :: text
  | blockComment text => '/' :: '*' :: text

/-- Whether a piece stands before a given character.  A comment up to the end of its line stands before a line end:
    by the same rule, a brace behind it would belong to it. -/
def Stands : Piece → Option Char → Prop
  | char c, next => c ≠ '"' ∧ c ≠ '`' ∧ c ≠ '\'' ∧ (c = '/' → next ≠ some '/' ∧ next ≠ some '*')
  | string text, _ => Quoted '"' text
  | backquoted text, next => Backquoted text ∧ next ≠ some '`'
  | literal c, _ => c ≠ '\\'
  | escape c digits, _ =>
    digits = [] ∧ c ∈ ['t', 'n', 'r', '\\', '\'', '"'] ∨
      Body.Lexer.escapeLength? c = some digits.length ∧ ∀ d ∈ digits, (Body.Lexer.digitValue? d).isSome
  | lineComment text, next => '\n' ∉ text ∧ next = some '\n'
  | blockComment text, _ => Nested text

/-- What a piece adds to the code: literals and comments are none of it. -/
def code : Piece → List Char
  | char c => [c]
  | _ => []

/-- The text of pieces one after the other. -/
def spelled (pieces : List Piece) : List Char := pieces.flatMap text

/-- Whether pieces stand one after the other before a given character. -/
def Follow : List Piece → Option Char → Prop
  | [], _ => True
  | p :: pieces, next => p.Stands ((spelled pieces).head?.or next) ∧ Follow pieces next

@[simp] theorem spelled_cons (p : Piece) (pieces : List Piece) :
    spelled (p :: pieces) = p.text ++ spelled pieces := rfl

end Piece

/-- Pieces that make a body by the rules of its language, before the brace that closes it: the braces outside of
    literals and comments balance. -/
structure IsBodyOf (pieces : List Piece) : Prop where
  follow : Piece.Follow pieces (some '}')
  balanced : depthAfter 0 (pieces.flatMap Piece.code) = some 0

/-! ## Section 2 - pieces in step -/

/-- Whether a backslash stands before a backquote and hides it.  A backslash hides the character after it unless it
    is hidden itself. -/
def hidesBackquote : List Char → Bool
  | '\\' :: c :: cs => c = '`' || hidesBackquote cs
  | _ :: cs => hidesBackquote cs
  | [] => false

theorem hidesBackquote_char {c : Char} {cs : List Char} (hc : c ≠ '\\') :
    hidesBackquote (c :: cs) = hidesBackquote cs := by
  rw [hidesBackquote.eq_2]
  exact fun _ _ h _ => hc h

/-- Whether the reader of bodies keeps step with pieces.  No backslash hides a backquote.  The quote that closes an
    escape with digits is read as the first of a literal, so behind it there is a character that this literal may
    swallow, and no quote behind that. -/
def keepsStep : List Piece → Bool
  | [] => true
  | .backquoted text :: ps => !hidesBackquote text && keepsStep ps
  | .escape _ (_ :: _) :: .char c :: ps =>
    c ≠ '{' && c ≠ '}' && c ≠ '\\' && (Piece.spelled ps).head? ≠ some '\'' && keepsStep ps
  | .escape _ (_ :: _) :: _ => false
  | _ :: ps => keepsStep ps

/-- Whether items open and close the braces of a code. -/
def Counts (code : List Char) (items : List Item) : Prop :=
  ∀ depth, depthAfter depth (items.flatMap Item.code) = depthAfter depth code

theorem Counts.cons {code : List Char} {items : List Item} (h : Counts code items) (i : Item) :
    Counts (i.code ++ code) (i :: items) := by
  intro depth
  rw [List.flatMap_cons]
  ext last
  constructor
  · intro hlast
    obtain ⟨middle, hi, hitems⟩ := depthAfter_append.1 hlast
    exact depthAfter_append.2 ⟨middle, hi, h middle ▸ hitems⟩
  · intro hlast
    obtain ⟨middle, hi, hitems⟩ := depthAfter_append.1 hlast
    exact depthAfter_append.2 ⟨middle, hi, (h middle).trans hitems⟩

section
variable {next : Option Char} {code rest : List Char}

/-- A text between backquotes is read as strings, one up to each of its backquotes. -/
theorem splits_backquoted {text : List Char} (h : Backquoted text) (hhides : hidesBackquote text = false)
    (opened : Place) (hrest : Mode.code.Splits rest next (Counts code)) :
    (Mode.string opened '`').Splits (text ++ rest) next (Counts code) := by
  cases h with
  | close => exact splits_string_close (.inr rfl) hrest
  | @double text htext =>
    have hsplits := splits_backquoted htext (by simpa [hidesBackquote_char] using hhides) opened hrest
    exact splits_string_close (.inr rfl) (splits_string hsplits fun t items h => h.cons (.string '`' t))
  | @char c text htext hc =>
    by_cases hslash : c = '\\'
    · subst hslash
      -- What the backslash hides is no backquote, so it is a character of the text as well.
      cases htext with
      | close => simp [hidesBackquote] at hhides
      | double => simp [hidesBackquote] at hhides
      | @char c text htext hc =>
        rw [hidesBackquote, Bool.or_eq_false_iff] at hhides
        exact splits_string_hidden (splits_backquoted htext hhides.2 opened hrest)
    · rw [hidesBackquote_char hslash] at hhides
      exact splits_string_char hc hslash (splits_backquoted htext hhides opened hrest)
termination_by text.length

/-- A hexadecimal digit is a character of words. -/
theorem isIdentPart_of_digitValue? {d : Char} (h : (Body.Lexer.digitValue? d).isSome) : isIdentPart d = true := by
  have hupper : d ≤ 'F' → d ≤ 'Z' := fun h => Char.le_trans h (by decide)
  have hlower : d ≤ 'f' → d ≤ 'z' := fun h => Char.le_trans h (by decide)
  have halpha : d.isUpper = true ∨ d.isLower = true → isIdentPart d = true := by
    intro h
    show (((d.isUpper || d.isLower) || d.isDigit) || decide (d = '_')) = true
    rw [Bool.or_eq_true_iff.2 h]
    rfl
  unfold Body.Lexer.digitValue? at h
  split at h
  · rename_i hdigit
    simp [isIdentPart, Char.isAlphanum, hdigit]
  split at h
  · rename_i hletter
    exact halpha (.inr (Bool.and_eq_true_iff.2 ⟨decide_eq_true hletter.1, decide_eq_true (hlower hletter.2)⟩))
  split at h
  · rename_i hletter
    exact halpha (.inl (decide_eq_true ⟨hletter.1, hupper hletter.2⟩))
  · cases h

theorem stands_of_isPlain {c : Char} (h : isPlain c = true) : (Item.char c).Stands next := by
  simp only [isPlain, Bool.not_eq_true', Bool.or_eq_false_iff, decide_eq_false_iff_not] at h
  obtain ⟨⟨⟨⟨⟨hslash, hsingle⟩, hdouble⟩, hback⟩, -⟩, -⟩ := h
  exact ⟨hdouble, hback, hsingle, fun h => absurd h hslash⟩

/-- The digits of an escape are read as characters of the code. -/
theorem splits_digits {digits : List Char} (hdigits : ∀ d ∈ digits, (Body.Lexer.digitValue? d).isSome)
    (hrest : Mode.code.Splits rest next (Counts code)) : Mode.code.Splits (digits ++ rest) next (Counts code) := by
  induction digits with
  | nil => exact hrest
  | cons d digits ih =>
    rw [List.forall_mem_cons] at hdigits
    have hd : isIdentPart d = true := isIdentPart_of_digitValue? hdigits.1
    have hstands : (Item.char d).Stands ((digits ++ rest).head?.or next) :=
      stands_of_isPlain (isPlain_of_isIdentPart hd)
    refine splits_item (i := .char d) (ih hdigits.2) hstands fun items hitems depth => ?_
    exact (depthAfter_char (ne_of_isIdentPart hd (by decide)) (ne_of_isIdentPart hd (by decide)) depth _).trans
      (hitems depth)

/-- An escape with digits and a character behind it are read as a literal that nothing closes, the digits, and
    another such literal of the quote and the character. -/
theorem splits_escape {x c : Char} {digits : List Char} (hne : digits ≠ [])
    (hdigits : ∀ d ∈ digits, (Body.Lexer.digitValue? d).isSome) (hopen : c ≠ '{') (hclose : c ≠ '}')
    (hslash : c ≠ '\\') (hquote : rest.head?.or next ≠ some '\'') (hrest : Mode.code.Splits rest next (Counts code)) :
    Mode.code.Splits ((Piece.escape x digits).text ++ c :: rest) next (Counts (c :: code)) := by
  have hswallowed : Mode.code.Splits ('\'' :: c :: rest) next (Counts (c :: code)) :=
    splits_item (i := .literal false c false) hrest ⟨fun _ => hslash, fun _ => hquote⟩
      fun items hitems depth => (hitems depth).trans (depthAfter_char hopen hclose depth code).symm
  have hdigit : (digits ++ '\'' :: c :: rest).head?.or next ≠ some '\'' := by
    obtain ⟨d, ds, rfl⟩ := List.exists_cons_of_ne_nil hne
    have hd : isIdentPart d = true := isIdentPart_of_digitValue? (hdigits d List.mem_cons_self)
    intro h
    exact ne_of_isIdentPart hd (by decide) (Option.some.inj h)
  have hsplits := splits_item (i := .literal true x false) (splits_digits hdigits hswallowed)
    ⟨fun h => absurd h (by decide), fun _ => hdigit⟩ fun items hitems => hitems.cons (.literal true x false)
  simpa [Piece.text, Item.text, Item.code] using hsplits

/-- A piece other than a text in backquotes and an escape with digits is one item. -/
theorem item_of_piece {p : Piece} (h : p.Stands next) (hback : ∀ text, p ≠ .backquoted text)
    (hescape : ∀ c d ds, p ≠ .escape c (d :: ds)) :
    ∃ i : Item, i.text = p.text ∧ i.code = p.code ∧ i.Stands next := by
  cases p with
  | char c => exact ⟨.char c, rfl, rfl, h⟩
  | string text => exact ⟨.string '"' text, rfl, rfl, .inl rfl, h⟩
  | backquoted text => exact absurd rfl (hback text)
  | literal c => exact ⟨.literal false c true, rfl, rfl, fun _ => h, by simp⟩
  | escape c digits =>
    cases digits with
    | nil => exact ⟨.literal true c true, rfl, rfl, by simp, by simp⟩
    | cons d ds => exact absurd rfl (hescape c d ds)
  | lineComment text => exact ⟨.lineComment text, rfl, rfl, h.1, .inr h.2⟩
  | blockComment text => exact ⟨.blockComment text, rfl, rfl, h⟩

end

/-- Pieces with which the reader of bodies keeps step are items that open and close the same braces. -/
theorem splits_pieces {pieces : List Piece} (hfollow : Piece.Follow pieces (some '}'))
    (hstep : keepsStep pieces = true) :
    Mode.code.Splits (Piece.spelled pieces) (some '}') (Counts (pieces.flatMap Piece.code)) := by
  fun_induction keepsStep pieces with
  | case1 => exact splits_nil fun _ => rfl
  | case2 text ps ih =>
    rw [Bool.and_eq_true, Bool.not_eq_true'] at hstep
    have hsplits := splits_backquoted hfollow.1.1 hstep.1 .start (ih hfollow.2 hstep.2)
    exact splits_string hsplits fun t items h => h.cons (.string '`' t)
  | case3 x d ds c ps ih =>
    -- The character behind the escape goes to the literal of its last quote, so the step is found again after it.
    simp only [Bool.and_eq_true, decide_eq_true_eq] at hstep
    obtain ⟨⟨⟨⟨hopen, hclose⟩, hslash⟩, hquote⟩, hstep⟩ := hstep
    obtain ⟨hescape, -, hfollow⟩ := hfollow
    have hdigits := (hescape.resolve_left fun h => List.cons_ne_nil _ _ h.1).2
    have hnext : (Piece.spelled ps).head?.or (some '}') ≠ some '\'' := by
      rcases hps : (Piece.spelled ps).head? with _ | y
      · decide
      · rwa [hps] at hquote
    exact splits_escape (List.cons_ne_nil d ds) hdigits hopen hclose hslash hnext (ih hfollow hstep)
  | case4 => cases hstep
  | case5 p ps hback _ hescape ih =>
    obtain ⟨i, htext, hcode, hi⟩ := item_of_piece hfollow.1 hback hescape
    rw [Piece.spelled_cons, List.flatMap_cons, ← htext, ← hcode]
    exact splits_item (ih hfollow.2 hstep) hi fun items h => h.cons i

theorem isBody_of_pieces {pieces : List Piece} (h : IsBodyOf pieces) (hstep : keepsStep pieces = true) :
    IsBody (Piece.spelled pieces) := by
  obtain ⟨_, items, htext, rfl, hfits, hcounts⟩ := splits_pieces h.follow hstep
  exact ⟨items, htext.symm, hfits, (hcounts 0).trans h.balanced⟩

end HotReload.Scan

namespace HotReload

open Scan

/-! ## Section 3 - bodies that are taken whole -/

/-- The body of a class is taken whole if the reader keeps step with its pieces. -/
theorem scan_class_of_keepsStep {name : String} (hname : IsName name.toList) {pieces : List Piece}
    (hbody : IsBodyOf pieces) (hstep : keepsStep pieces = true) :
    scan ("class " ++ name ++ " \x7b" ++ String.ofList (Piece.spelled pieces) ++ "\x7d") =
      .ok [⟨name, none, String.ofList (Piece.spelled pieces), ⟨1, 1⟩, ⟨1, name.length + 9⟩⟩] := by
  let header : List Char := "class ".toList ++ (name.toList ++ [' '])
  let body : List Char := Piece.spelled pieces
  have hdeclared : Declared ([] ++ []) (header ++ '{' :: (body ++ '}' :: ([] ++ [])))
      [⟨name, none, String.ofList body, .behind [], .behind (header ++ ['{'])⟩] :=
    .more (isHeader_class hname _) (isBody_of_pieces hbody hstep) (isTrivia_nil _) (.none _)
  have hunit := readUnit_of_declared hdeclared (isTrivia_nil _)
  have hplace : Place.behind (header ++ ['{']) = ⟨1, name.length + 9⟩ := by
    have hline : '\n' ∉ name.toList := hname.not_mem (by decide)
    rw [Place.behind_of_not_mem (by simp [header, hline]), ← String.length_toList (s := name)]
    simp [header]
  have htext : ("class " ++ name ++ " \x7b" ++ String.ofList body ++ "\x7d").toList =
      header ++ '{' :: (body ++ '}' :: ([] ++ [])) := by
    simp [header]
  rw [scan, Cursor.ofText, htext, Place.start_eq_behind, ← hplace]
  exact hunit

/-- Doubled backquotes, an escape with digits and literals of braces are passed over. -/
theorem scan_class_of_literals : IsName "N".toList ∧
    IsBodyOf [.backquoted "\x7b``\\n`".toList, .char ';', .escape 'x' "7D".toList, .char ';', .char ' ', .literal '{'] ∧
    scan "class N \x7b`\x7b``\\n`;'\\x7D'; '\x7b'\x7d" =
      .ok [⟨"N", none, "`\x7b``\\n`;'\\x7D'; '\x7b'", ⟨1, 1⟩, ⟨1, 10⟩⟩] := by
  have hname : IsName "N".toList := ⟨⟨'N', [], rfl, by decide⟩, List.all_eq_true.1 (by decide)⟩
  have htext : Backquoted "\x7b``\\n`".toList :=
    .char (.double (.char (.char .close (by decide)) (by decide))) (by decide)
  have hplain {c : Char} (h : isPlain c = true) (next : Option Char) : (Piece.char c).Stands next :=
    stands_of_isPlain h
  have hbody : IsBodyOf [.backquoted "\x7b``\\n`".toList, .char ';', .escape 'x' "7D".toList, .char ';', .char ' ',
      .literal '{'] :=
    ⟨⟨⟨htext, by decide⟩, hplain (by decide) _, .inr ⟨rfl, List.all_eq_true.1 (by decide)⟩, hplain (by decide) _,
      hplain (by decide) _, by simp [Piece.Stands], trivial⟩, rfl⟩
  have hunit : "class " ++ "N" ++ " \x7b" ++ String.ofList (Piece.spelled [.backquoted "\x7b``\\n`".toList, .char ';',
      .escape 'x' "7D".toList, .char ';', .char ' ', .literal '{']) ++ "\x7d" =
        "class N \x7b`\x7b``\\n`;'\\x7D'; '\x7b'\x7d" := by decide +kernel
  have hscan := scan_class_of_keepsStep hname hbody rfl
  rw [hunit] at hscan
  exact ⟨hname, hbody, hscan⟩

/-- A text of one backslash is not closed by its backquote, and an escape with digits in front of the brace swallows
    it. -/
theorem scan_class_loses_step :
    IsBodyOf [.backquoted "\\`".toList] ∧ scan "class N \x7b`\\`\x7d" = .error (.openString ⟨1, 10⟩) ∧
    IsBodyOf [.escape 'x' "41".toList] ∧ scan "class N \x7b'\\x41'\x7d" = .error (.openBody ⟨1, 9⟩ "N") := by
  have htext : Backquoted "\\`".toList := .char .close (by decide)
  refine ⟨⟨⟨⟨htext, by decide⟩, trivial⟩, rfl⟩, ?_, ⟨⟨.inr ⟨rfl, List.all_eq_true.1 (by decide)⟩, trivial⟩, rfl⟩, ?_⟩
  · decide +kernel
  · decide +kernel

end HotReload
