import HotReload.Proofs.Unit.Itemwise
import Mathlib.Data.List.TakeWhile

/-! # The grammar of units

    A unit is trivia and declarations with trivia behind each.  The grammar is stated on
    the text alone, one rule for each part of a declaration, and so are the places: a
    line is counted by the line ends before it, and a column by the characters since the
    last of them.

    A text scans to declarations exactly if it is put together from them by this grammar. -/

namespace HotReload

/-- The place behind a text: the line ends in it give the line, and the characters after the last of them
    the column. -/
def Place.behind (text : List Char) : Place :=
  ⟨text.count '\n' + 1, (text.reverse.takeWhile (· ≠ '\n')).length + 1⟩

namespace Place

theorem next_behind (text : List Char) (c : Char) : (behind text).next c = behind (text ++ [c]) := by
  by_cases hc : c = '\n'
  · subst hc
    simp [next, behind]
  · simp [next, behind, hc]

theorem advance_behind (before text : List Char) : (behind before).advance text = behind (before ++ text) := by
  induction text generalizing before with
  | nil => simp
  | cons c cs ih => rw [advance_cons, next_behind, ih, List.append_assoc, List.singleton_append]

theorem start_eq_behind : start = behind [] := rfl

theorem behind_of_not_mem {text : List Char} (h : '\n' ∉ text) : behind text = ⟨1, text.length + 1⟩ := by
  have htake : text.reverse.takeWhile (· ≠ '\n') = text.reverse :=
    List.takeWhile_eq_self_iff.2 fun c hc => decide_eq_true fun hline => h (hline ▸ List.mem_reverse.1 hc)
  rw [behind, List.count_eq_zero_of_not_mem h, htake, List.length_reverse]

end Place

namespace Scan

/-! ## Section 1 - the rules -/

/-- An identifier that does not go on with the character after it. -/
structure IsIdent (word : List Char) (next : Option Char) : Prop where
  name : IsName word
  maximal : ∀ c ∈ next, isIdentPart c = false

/-- What stands between the name of a type and the brace of its body, in front of a text: a colon and a base with
    trivia around it, or nothing. -/
inductive IsBase (after : List Char) : List Char → Option String → Prop where
  | absent : IsBase after [] none
  | present {gap gap' : List Char} {base : String} (hgap : IsTrivia gap (base.toList ++ (gap' ++ after)).head?)
      (hbase : IsIdent base.toList (gap' ++ after).head?) (hgap' : IsTrivia gap' after.head?) :
      IsBase after (':' :: (gap ++ (base.toList ++ gap'))) (some base)

/-- What stands before the brace of a body, in front of a text: the keyword, the name of the type, and its base
    if there is one. -/
inductive IsHeader (after : List Char) : List Char → String → Option String → Prop where
  | mk {gap gap' tail : List Char} {name : String} {base : Option String}
      (hkeyword : IsIdent "class".toList (gap ++ (name.toList ++ (gap' ++ (tail ++ after)))).head?)
      (hgap : IsTrivia gap (name.toList ++ (gap' ++ (tail ++ after))).head?)
      (hname : IsIdent name.toList (gap' ++ (tail ++ after)).head?) (hgap' : IsTrivia gap' (tail ++ after).head?)
      (hbase : IsBase after tail base) :
      IsHeader after ("class".toList ++ (gap ++ (name.toList ++ (gap' ++ tail)))) name base

/-- A text of declarations with trivia behind each, where `before` stands in front of it. -/
inductive Declared : List Char → List Char → List Declaration → Prop where
  | none (before : List Char) : Declared before [] []
  | more {before header body gap rest : List Char} {name : String} {base : Option String}
      {others : List Declaration} (hheader : IsHeader ('{' :: (body ++ '}' :: (gap ++ rest))) header name base)
      (hbody : IsBody body) (hgap : IsTrivia gap rest.head?)
      (hothers : Declared (before ++ (header ++ '{' :: (body ++ '}' :: gap))) rest others) :
      Declared before (header ++ '{' :: (body ++ '}' :: (gap ++ rest)))
        (⟨name, base, String.ofList body, .behind before, .behind (before ++ (header ++ ['{']))⟩ :: others)

/-- A text of trivia and declarations. -/
def IsUnitOf (ds : List Declaration) (text : List Char) : Prop :=
  ∃ gap rest, text = gap ++ rest ∧ IsTrivia gap rest.head? ∧ Declared gap rest ds

/-! ## Section 2 - words -/

/-- An identifier is read exactly if it stands at the cursor. -/
theorem ident?_eq_some {c d : Cursor} {word : String} : ident? c = some (word, d) ↔
    c.Reads word.toList d ∧ IsIdent word.toList d.rest.head? := by
  obtain ⟨p, cs⟩ := c
  obtain ⟨q, rest⟩ := d
  constructor
  · intro h
    refine ⟨(ident?_reads h).1, isName_of_ident? h, ?_⟩
    intro c hc
    cases cs with
    | nil => simp [ident?] at h
    | cons x xs =>
      simp only [ident?] at h
      split at h
      · obtain ⟨-, hcursor⟩ := Prod.mk.inj (Option.some.inj h)
        obtain ⟨-, rfl⟩ := Cursor.mk.inj hcursor
        have := List.head?_dropWhile_not isIdentPart (x :: xs)
        rw [Option.mem_def.1 hc] at this
        simpa using this
      · cases h
  · rintro ⟨⟨hcs, hplace⟩, hname, hmaximal⟩
    simp only at hcs hplace hmaximal
    subst hcs hplace
    rw [ident?_word hname hmaximal, String.ofList_toList]

/-! ## Section 3 - trivia -/

theorem solid_of_isIdent {word : List Char} {next : Option Char} (h : IsIdent word next) (rest : List Char) :
    Solid (word ++ rest).head? := by
  obtain ⟨x, xs, rfl, hx⟩ := h.name.start
  exact solid_of_isIdentPart (isIdentPart_of_isIdentStart hx)

theorem solid_brace : Solid (some '{') := by
  rintro c ⟨rfl⟩
  decide

/-- What trivia take is trivia. -/
theorem gap_of_trivia {c d : Cursor} (h : trivia c = .ok d) :
    ∃ gap, c.Reads gap d ∧ IsTrivia gap d.rest.head? := by
  obtain ⟨gap, hcs, before, items, rfl, rfl, hfits, htrivia⟩ := splits_of_readTrivia h trivial (by simp)
  obtain ⟨text, htext, hplace⟩ := trivia_reads h
  obtain rfl : text = spell items := List.append_cancel_right (htext.symm.trans hcs)
  exact ⟨_, ⟨hcs, hplace⟩, items, rfl, hfits, htrivia⟩

/-- Trivia in front of something solid are taken whole. -/
theorem trivia_of_gap {c d : Cursor} {gap : List Char} (hreads : c.Reads gap d)
    (hgap : IsTrivia gap d.rest.head?) (hd : Solid d.rest.head?) : trivia c = .ok d := by
  obtain ⟨p, cs⟩ := c
  obtain ⟨q, rest⟩ := d
  obtain ⟨hcs, hplace⟩ := hreads
  simp only at hcs hplace hgap hd
  subst hcs hplace
  exact (readTrivia_isTrivia hgap p).trans (readTrivia_solid hd _)

/-! ## Section 4 - declarations -/

/-- What is read in two parts is read up to a cursor and from there. -/
theorem reads_split {c d : Cursor} {a b : List Char} (h : c.Reads (a ++ b) d) :
    ∃ middle : Cursor, c.Reads a middle ∧ middle.Reads b d := by
  obtain ⟨hrest, hplace⟩ := h
  exact ⟨⟨c.place.advance a, b ++ d.rest⟩, ⟨by rw [hrest, List.append_assoc], rfl⟩,
    ⟨rfl, by rw [hplace, Place.advance_append]⟩⟩

/-- The base in front of a brace is read exactly if it stands there. -/
theorem readBase_eq_ok_iff {n : String} {c d : Cursor} {base : Option String} {cs : List Char}
    (hd : d.rest = '{' :: cs) :
    readBase n c = .ok (base, d) ↔ ∃ text, c.Reads text d ∧ IsBase d.rest text base := by
  constructor
  · intro h
    rcases readBase_eq_ok.1 h with ⟨-, rfl, rfl⟩ | ⟨xs, atBase, word, afterBase, hxs, h₁, h₂, h₃, rfl⟩
    · exact ⟨[], .refl _, .absent⟩
    · obtain ⟨gap, hreads, hgap⟩ := gap_of_trivia h₁
      obtain ⟨hreads', hword⟩ := ident?_eq_some.1 h₂
      obtain ⟨gap', hreads'', hgap'⟩ := gap_of_trivia h₃
      rw [hreads'.1, hreads''.1] at hgap
      rw [hreads''.1] at hword
      have hcolon : c = ⟨c.place, ':' :: xs⟩ := by rw [← hxs]
      refine ⟨':' :: (gap ++ (word.toList ++ gap')), ?_, .present hgap hword hgap'⟩
      rw [hcolon]
      exact (hreads.trans (hreads'.trans hreads'')).cons
  · rintro ⟨_, hreads, hbase⟩
    cases hbase with
    | absent =>
      obtain ⟨hrest, hplace⟩ := hreads
      obtain rfl : d = c := by
        cases c
        cases d
        simp_all
      exact readBase_eq_ok.2 (.inl ⟨by simp [hd], rfl, rfl⟩)
    | @present gap gap' base hgap hword hgap' =>
      have htail : Cursor.Reads ⟨c.place.next ':', gap ++ (base.toList ++ gap') ++ d.rest⟩
          (gap ++ (base.toList ++ gap')) d := ⟨rfl, hreads.2⟩
      obtain ⟨atBase, hreads₁, htail⟩ := reads_split htail
      obtain ⟨afterBase, hreads₂, hreads₃⟩ := reads_split htail
      rw [← hreads₃.1, ← hreads₂.1] at hgap
      rw [← hreads₃.1] at hword
      have hsolid : Solid atBase.rest.head? := by
        rw [hreads₂.1]
        exact solid_of_isIdent hword _
      refine readBase_eq_ok.2 (.inr ⟨_, atBase, base, afterBase, hreads.1, trivia_of_gap hreads₁ hgap hsolid,
        ident?_eq_some.2 ⟨hreads₂, hword⟩, trivia_of_gap hreads₃ hgap' ?_, rfl⟩)
      rw [hd]
      exact solid_brace

theorem solid_of_isBase {after text : List Char} {base : Option String} (h : IsBase after text base)
    (hafter : Solid after.head?) : Solid (text ++ after).head? := by
  cases h with
  | absent => exact hafter
  | present =>
    rintro c ⟨rfl⟩
    decide

theorem isBase_congr {xs ys text : List Char} {base : Option String} (h : IsBase ('{' :: xs) text base) :
    IsBase ('{' :: ys) text base := by
  cases h with
  | absent => exact .absent
  | present hgap hbase hgap' =>
    simp only [List.head?_append, List.head?_cons] at hgap hbase
    refine .present ?_ ?_ hgap' <;> simpa only [List.head?_append, List.head?_cons]

/-- A header in front of a brace does not depend on what follows the brace. -/
theorem isHeader_congr {xs ys header : List Char} {name : String} {base : Option String}
    (h : IsHeader ('{' :: xs) header name base) : IsHeader ('{' :: ys) header name base := by
  cases h with
  | mk hkeyword hgap hname hgap' hbase =>
    simp only [List.head?_append, List.head?_cons] at hkeyword hgap hname hgap'
    refine .mk ?_ ?_ ?_ ?_ (isBase_congr hbase) <;> simpa only [List.head?_append, List.head?_cons]

/-- The parts in front of a brace are read exactly if a header stands there. -/
theorem header_iff {c d : Cursor} {name : String} {base : Option String} {cs : List Char} (hd : d.rest = '{' :: cs) :
    (∃ afterWord atName afterName atBase, ident? c = some ("class", afterWord) ∧ trivia afterWord = .ok atName ∧
      ident? atName = some (name, afterName) ∧ trivia afterName = .ok atBase ∧
      readBase name atBase = .ok (base, d)) ↔ ∃ header, c.Reads header d ∧ IsHeader d.rest header name base := by
  constructor
  · rintro ⟨afterWord, atName, afterName, atBase, h₁, h₂, h₃, h₄, h₅⟩
    obtain ⟨hreads₁, hkeyword⟩ := ident?_eq_some.1 h₁
    obtain ⟨gap, hreads₂, hgap⟩ := gap_of_trivia h₂
    obtain ⟨hreads₃, hname⟩ := ident?_eq_some.1 h₃
    obtain ⟨gap', hreads₄, hgap'⟩ := gap_of_trivia h₄
    obtain ⟨tail, hreads₅, hbase⟩ := (readBase_eq_ok_iff hd).1 h₅
    -- Each part stands in front of what the parts after it have taken.
    rw [hreads₂.1, hreads₃.1, hreads₄.1, hreads₅.1] at hkeyword
    rw [hreads₃.1, hreads₄.1, hreads₅.1] at hgap
    rw [hreads₄.1, hreads₅.1] at hname
    rw [hreads₅.1] at hgap'
    exact ⟨_, hreads₁.trans (hreads₂.trans (hreads₃.trans (hreads₄.trans hreads₅))),
      .mk hkeyword hgap hname hgap' hbase⟩
  · rintro ⟨_, hreads, ⟨hkeyword, hgap, hname, hgap', hbase⟩⟩
    obtain ⟨afterWord, hreads₁, hreads⟩ := reads_split hreads
    obtain ⟨atName, hreads₂, hreads⟩ := reads_split hreads
    obtain ⟨afterName, hreads₃, hreads⟩ := reads_split hreads
    obtain ⟨atBase, hreads₄, hreads₅⟩ := reads_split hreads
    have hsolid : Solid d.rest.head? := hd ▸ solid_brace
    rw [← hreads₅.1, ← hreads₄.1, ← hreads₃.1, ← hreads₂.1] at hkeyword
    rw [← hreads₅.1, ← hreads₄.1, ← hreads₃.1] at hgap
    rw [← hreads₅.1, ← hreads₄.1] at hname
    rw [← hreads₅.1] at hgap'
    refine ⟨afterWord, atName, afterName, atBase, ident?_eq_some.2 ⟨hreads₁, hkeyword⟩,
      trivia_of_gap hreads₂ hgap ?_, ident?_eq_some.2 ⟨hreads₃, hname⟩, trivia_of_gap hreads₄ hgap' ?_,
      (readBase_eq_ok_iff hd).2 ⟨_, hreads₅, hbase⟩⟩
    · rw [hreads₃.1]
      exact solid_of_isIdent hname _
    · rw [hreads₅.1]
      exact solid_of_isBase hbase hsolid

/-- A body is read exactly if it stands before its brace. -/
theorem readBody_eq_ok_iff {p : Place} {cs body : List Char} {after : Cursor} :
    readBody .code 0 p cs = .ok (some (body, after)) ↔
      Cursor.Reads ⟨p, cs⟩ (body ++ ['}']) after ∧ IsBody body := by
  constructor
  · intro h
    obtain ⟨_, items, rfl, rfl, hfits, hdepth⟩ := splits_of_readBody h trivial
    exact ⟨readBody_reads h, items, rfl, hfits, hdepth⟩
  · rintro ⟨⟨hcs, hplace⟩, items, rfl, hfits, hdepth⟩
    obtain ⟨q, rest⟩ := after
    simp only at hcs hplace
    subst hcs hplace
    rw [List.append_assoc]
    exact (readBody_items hfits hdepth p rest).trans (by simp)

/-- A declaration is read exactly if its header and its body stand at the cursor. -/
theorem readDeclaration_eq_ok_iff {c after : Cursor} {first : Char} {d : Declaration} :
    readDeclaration c first = .ok (d, after) ↔ ∃ header body name base,
      c.Reads (header ++ '{' :: (body ++ ['}'])) after ∧
      IsHeader ('{' :: (body ++ '}' :: after.rest)) header name base ∧ IsBody body ∧
      d = ⟨name, base, String.ofList body, c.place, c.place.advance (header ++ ['{'])⟩ := by
  constructor
  · intro h
    obtain ⟨afterWord, atName, name, afterName, atBase, base, opening, cs, body,
      h₁, h₂, h₃, h₄, h₅, hcs, h₇, rfl⟩ := readDeclaration_eq_ok.1 h
    obtain ⟨header, hreads, hheader⟩ := (header_iff hcs).1 ⟨afterWord, atName, afterName, atBase, h₁, h₂, h₃, h₄, h₅⟩
    obtain ⟨hreads', hbody⟩ := readBody_eq_ok_iff.1 h₇
    have hopening : opening = ⟨opening.place, '{' :: cs⟩ := by rw [← hcs]
    have hrest : opening.rest = '{' :: (body ++ '}' :: after.rest) := by rw [hcs, eq_of_readBody h₇]
    refine ⟨header, body, name, base, ?_, hrest ▸ hheader, hbody, ?_⟩
    · rw [hopening] at hreads
      exact hreads.trans hreads'.cons
    · rw [Place.advance_append, ← hreads.2]
      rfl
  · rintro ⟨header, body, name, base, hreads, hheader, hbody, rfl⟩
    obtain ⟨opening, hreads, hbrace⟩ := reads_split hreads
    have hcs : opening.rest = '{' :: (body ++ ['}'] ++ after.rest) := hbrace.1
    have hrest : opening.rest = '{' :: (body ++ '}' :: after.rest) := by
      rw [hcs, List.append_assoc]
      rfl
    obtain ⟨afterWord, atName, afterName, atBase, h₁, h₂, h₃, h₄, h₅⟩ :=
      (header_iff hrest).2 ⟨header, hreads, hrest ▸ hheader⟩
    refine readDeclaration_eq_ok.2 ⟨afterWord, atName, name, afterName, atBase, base, opening, _, body,
      h₁, h₂, h₃, h₄, h₅, hcs, readBody_eq_ok_iff.2 ⟨⟨rfl, hbrace.2⟩, hbody⟩, ?_⟩
    rw [Place.advance_append, ← hreads.2]
    rfl

theorem isTrivia_nil (next : Option Char) : IsTrivia [] next := ⟨[], rfl, trivial, by simp⟩

theorem isTrivia_blank {c : Char} (h : isBlank c = true) (next : Option Char) : IsTrivia [c] next :=
  ⟨[.char c], rfl, ⟨stands_of_isBlank h _, trivial⟩, by simpa [Item.isTrivia] using h⟩

/-- The keyword and a name with a space behind each, in front of a brace. -/
theorem isHeader_class {name : String} (h : IsName name.toList) (rest : List Char) :
    IsHeader ('{' :: rest) ("class ".toList ++ (name.toList ++ [' '])) name none := by
  have hspace : ∀ c ∈ some ' ', isIdentPart c = false := not_isIdentPart_head (by decide) []
  have hheader : IsHeader ('{' :: rest) ("class".toList ++ ([' '] ++ (name.toList ++ ([' '] ++ [])))) name none :=
    .mk ⟨isName_class, hspace⟩ (isTrivia_blank (by decide) _) ⟨h, hspace⟩ (isTrivia_blank (by decide) _) .absent
  simpa using hheader

/-! ## Section 5 - units -/

theorem start_of_isHeader {after header : List Char} {name : String} {base : Option String}
    (h : IsHeader after header name base) (rest : List Char) :
    ∃ xs, header ++ rest = 'c' :: xs ∧ Solid (header ++ rest).head? := by
  cases h with
  | mk hkeyword => exact ⟨_, rfl, solid_of_isIdent hkeyword _⟩

/-- What is read as declarations behind a text are declarations with trivia in front of them. -/
theorem declared_of_readUnit {before cs : List Char} {ds : List Declaration}
    (h : readUnit ⟨.behind before, cs⟩ = .ok ds) :
    ∃ gap rest, cs = gap ++ rest ∧ IsTrivia gap rest.head? ∧ Declared (before ++ gap) rest ds := by
  induction ds generalizing before cs with
  | nil =>
    obtain ⟨start, hstart, ⟨hrest, -⟩ | ⟨_, _, _, _, _, -, -, -, hds⟩⟩ := readUnit_eq_ok.1 h
    · obtain ⟨gap, hreads, hgap⟩ := gap_of_trivia hstart
      have hcs : cs = gap ++ start.rest := hreads.1
      rw [hrest] at hgap hcs
      exact ⟨gap, [], hcs, hgap, .none _⟩
    · cases hds
  | cons d ds ih =>
    obtain ⟨start, hstart, ⟨-, hds⟩ | ⟨first, xs, d, after, others, hrest, hd, hafter, hds⟩⟩ :=
      readUnit_eq_ok.1 h
    · cases hds
    · obtain ⟨rfl, rfl⟩ := List.cons.inj hds
      obtain ⟨gap, hreads, hgap⟩ := gap_of_trivia hstart
      obtain ⟨header, body, name, base, hreads', hheader, hbody, rfl⟩ := readDeclaration_eq_ok_iff.1 hd
      have hplace : start.place = .behind (before ++ gap) := by rw [hreads.2, Place.advance_behind]
      have hplace' : after.place = .behind (before ++ gap ++ (header ++ '{' :: (body ++ ['}']))) := by
        rw [hreads'.2, hplace, Place.advance_behind]
      have hothers : readUnit ⟨after.place, after.rest⟩ = .ok ds := hafter
      rw [hplace'] at hothers
      obtain ⟨gap', rest, hcs, hgap', hdeclared⟩ := ih hothers
      have hstart' : start.rest = header ++ '{' :: (body ++ '}' :: (gap' ++ rest)) := by
        rw [hreads'.1, hcs]
        simp
      rw [hcs] at hheader
      refine ⟨gap, start.rest, hreads.1, hgap, ?_⟩
      rw [hstart', hplace, Place.advance_behind]
      refine .more hheader hbody hgap' ?_
      simpa using hdeclared

/-- Declarations with trivia in front of them are read. -/
theorem readUnit_of_declared {before gap rest : List Char} {ds : List Declaration}
    (h : Declared (before ++ gap) rest ds) (hgap : IsTrivia gap rest.head?) :
    readUnit ⟨.behind before, gap ++ rest⟩ = .ok ds := by
  -- What stands in front splits anew into a text and trivia at each declaration.
  generalize hfront : before ++ gap = front at h
  induction h generalizing before gap with
  | none front =>
    have hstart : trivia ⟨.behind before, gap ++ []⟩ = .ok ⟨(Place.behind before).advance gap, []⟩ :=
      trivia_of_gap ⟨rfl, rfl⟩ hgap (by simp [Solid])
    exact readUnit_eq_ok.2 ⟨_, hstart, .inl ⟨rfl, rfl⟩⟩
  | @more front header body gap' rest name base others hheader hbody hgap' hothers ih =>
    subst hfront
    obtain ⟨xs, hxs, hsolid⟩ := start_of_isHeader hheader ('{' :: (body ++ '}' :: (gap' ++ rest)))
    have hstart : trivia ⟨.behind before, gap ++ (header ++ '{' :: (body ++ '}' :: (gap' ++ rest)))⟩ =
        .ok ⟨.behind (before ++ gap), header ++ '{' :: (body ++ '}' :: (gap' ++ rest))⟩ :=
      trivia_of_gap ⟨rfl, (Place.advance_behind before gap).symm⟩ hgap hsolid
    let before' : List Char := before ++ gap ++ (header ++ '{' :: (body ++ ['}']))
    have hreads : Cursor.Reads ⟨.behind (before ++ gap), header ++ '{' :: (body ++ '}' :: (gap' ++ rest))⟩
        (header ++ '{' :: (body ++ ['}'])) ⟨.behind before', gap' ++ rest⟩ :=
      ⟨by simp, (Place.advance_behind _ _).symm⟩
    have hothers : readUnit ⟨.behind before', gap' ++ rest⟩ = .ok others := ih hgap' (by simp [before'])
    refine readUnit_eq_ok.2 ⟨_, hstart, .inr ⟨'c', xs, _, _, others, hxs,
      readDeclaration_eq_ok_iff.2 ⟨header, body, name, base, hreads, hheader, hbody, rfl⟩, hothers, ?_⟩⟩
    rw [Place.advance_behind]

/-- Declarations are read behind a text exactly if they stand there with trivia in front of them. -/
theorem readUnit_eq_ok_iff {before cs : List Char} {ds : List Declaration} :
    readUnit ⟨.behind before, cs⟩ = .ok ds ↔
      ∃ gap rest, cs = gap ++ rest ∧ IsTrivia gap rest.head? ∧ Declared (before ++ gap) rest ds := by
  constructor
  · exact declared_of_readUnit
  · rintro ⟨gap, rest, rfl, hgap, hdeclared⟩
    exact readUnit_of_declared hdeclared hgap

end Scan

open Scan

/-- A text scans to declarations exactly if it is put together from them and from trivia by the grammar. -/
theorem scan_eq_ok_iff (source : String) (ds : List Declaration) :
    scan source = .ok ds ↔ IsUnitOf ds source.toList := by
  rw [scan, Cursor.ofText, Place.start_eq_behind, readUnit_eq_ok_iff]
  rfl

end HotReload
