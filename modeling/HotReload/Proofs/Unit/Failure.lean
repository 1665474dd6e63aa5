import HotReload.Proofs.Unit.Appendix
import HotReload.Proofs.Unit.Grammar

/-! # Failure: why a text is no unit, and where that is said

    The grammar says which texts are units.  This is the other side: each way in which the
    readers fail, with the fault that they give for it.

    A fault is at a place of the text: at one of its characters, or at its end.  That needs
    an argument for comments and strings only, since the place of one that stays open is
    remembered while it is read. -/

namespace HotReload

/-! ## Section 1 - where a text ends -/

namespace Place

theorem line_advance (p : Place) (cs : List Char) : (p.advance cs).line = p.line + cs.count '\n' := by
  induction cs generalizing p with
  | nil => rfl
  | cons c cs ih =>
    rw [advance_cons, ih, next, List.count_cons]
    by_cases hc : c = '\n'
    · subst hc
      simp only [if_true, BEq.rfl]
      omega
    · simp [hc]

theorem column_advance {cs : List Char} (h : '\n' ∉ cs) (p : Place) :
    (p.advance cs).column = p.column + cs.length := by
  induction cs generalizing p with
  | nil => rfl
  | cons c cs ih =>
    simp only [List.mem_cons, not_or] at h
    rw [advance_cons, ih h.2, next, if_neg (Ne.symm h.1), List.length_cons, Nat.add_right_comm, Nat.add_assoc]

/-- Only the empty text leaves a place as it is. -/
theorem advance_eq_self_iff {p : Place} {cs : List Char} : p.advance cs = p ↔ cs = [] := by
  constructor
  · intro h
    have hline : '\n' ∉ cs := by
      have := p.line_advance cs
      rw [h] at this
      exact List.count_eq_zero.1 (by omega)
    have hcolumn := column_advance hline p
    rw [h] at hcolumn
    exact List.length_eq_zero_iff.1 (by omega)
  · rintro rfl
    rfl

end Place

namespace Cursor

/-- The place at which the text of a cursor ends. -/
def stop (c : Cursor) : Place := c.place.advance c.rest

theorem Reads.stop_eq {c d : Cursor} {text : List Char} (h : c.Reads text d) : d.stop = c.stop := by
  rw [stop, stop, h.1, h.2, Place.advance_append]

theorem place_eq_stop_iff {c : Cursor} : c.place = c.stop ↔ c.rest = [] := by
  rw [eq_comm]
  exact Place.advance_eq_self_iff

/-- Whether a place is one of the text at a cursor: that of a character in it, or its end. -/
def Covers (c : Cursor) (p : Place) : Prop := ∃ text, text <+: c.rest ∧ p = c.place.advance text

theorem covers_place (c : Cursor) : c.Covers c.place := ⟨[], List.nil_prefix, rfl⟩

/-- What the rest of a text covers, all of it covers. -/
theorem Reads.covers {c d : Cursor} {text : List Char} (h : c.Reads text d) {p : Place} (hp : d.Covers p) :
    c.Covers p := by
  obtain ⟨more, hmore, rfl⟩ := hp
  refine ⟨text ++ more, ?_, ?_⟩
  · rw [h.1]
    exact (List.prefix_append_right_inj text).2 hmore
  · rw [h.2, Place.advance_append]

end Cursor

namespace Scan

/-! ## Section 2 - faults of trivia and bodies -/

/-- Where the comment or the string began that a mode is inside of. -/
def Mode.opened? : Mode → Option Place
  | .blockComment opened _ | .string opened _ => some opened
  | .code | .lineComment => none

/-- Whether a place is where a comment or a string began that is open, or one of the text to come. -/
def Opened (m : Mode) (c : Cursor) (q : Place) : Prop := m.opened? = some q ∨ c.Covers q

/-- A reader that goes on in another mode has opened nothing but at its own place. -/
theorem Opened.back {m m' : Mode} {c d : Cursor} {q : Place} (h : Opened m' d q) (text : List Char)
    (hreads : c.Reads text d) (hmode : ∀ q, m'.opened? = some q → m.opened? = some q ∨ q = c.place) :
    Opened m c q := by
  rcases h with hopened | hcovers
  · rcases hmode q hopened with hopened | rfl
    · exact .inl hopened
    · exact .inr c.covers_place
  · exact .inr (hreads.covers hcovers)

/-- Trivia fail in a comment that stays open. -/
theorem fault_of_readTrivia {m : Mode} {p : Place} {cs : List Char} {fault : ScanFault}
    (h : readTrivia m p cs = .error fault) : ∃ q, fault = .openComment q ∧ Opened m ⟨p, cs⟩ q := by
  fun_induction readTrivia m p cs with
  | case1 opened depth p =>
    cases h
    exact ⟨opened, rfl, .inl rfl⟩
  | case2 => cases h
  | case10 => cases h
  -- Two characters are a mark of a comment, and any other is taken by itself.
  | case3 | case4 | case7 | case8 =>
    rename_i ih
    obtain ⟨q, rfl, hq⟩ := ih h
    exact ⟨q, rfl, hq.back [_, _] ⟨rfl, rfl⟩ (by grind [Mode.opened?])⟩
  | case5 | case6 | case9 =>
    rename_i ih
    obtain ⟨q, rfl, hq⟩ := ih h
    exact ⟨q, rfl, hq.back [_] ⟨rfl, rfl⟩ (by grind [Mode.opened?])⟩

theorem keep_eq_error {read : List Char} {r : Except ScanFault (Option (List Char × Cursor))} {fault : ScanFault} :
    readBody.keep read r = .error fault ↔ r = .error fault := by
  rcases r with _ | _ | ⟨_, _⟩ <;> simp [readBody.keep]

/-- A body fails in a comment or a string that stays open. -/
theorem fault_of_readBody {m : Mode} {depth : Nat} {p : Place} {cs : List Char} {fault : ScanFault}
    (h : readBody m depth p cs = .error fault) :
    ∃ q, (fault = .openComment q ∨ fault = .openString q) ∧ Opened m ⟨p, cs⟩ q := by
  fun_induction readBody m depth p cs with
  | case1 o d depth p =>
    cases h
    exact ⟨o, .inl rfl, .inl rfl⟩
  | case2 o q depth p =>
    cases h
    exact ⟨o, .inr rfl, .inl rfl⟩
  | case3 | case17 => cases h
  | case6 | case7 | case9 | case16 | case18 | case19 =>
    rename_i ih
    obtain ⟨q, hfault, hq⟩ := ih (keep_eq_error.1 h)
    exact ⟨q, hfault, hq.back [_] ⟨rfl, rfl⟩ (by grind [Mode.opened?])⟩
  | case4 | case5 | case8 | case10 | case11 | case15 =>
    rename_i ih
    obtain ⟨q, hfault, hq⟩ := ih (keep_eq_error.1 h)
    exact ⟨q, hfault, hq.back [_, _] ⟨rfl, rfl⟩ (by grind [Mode.opened?])⟩
  | case13 | case14 =>
    rename_i ih
    obtain ⟨q, hfault, hq⟩ := ih (keep_eq_error.1 h)
    exact ⟨q, hfault, hq.back [_, _, _] ⟨rfl, rfl⟩ (by grind [Mode.opened?])⟩
  | case12 =>
    rename_i ih
    obtain ⟨q, hfault, hq⟩ := ih (keep_eq_error.1 h)
    exact ⟨q, hfault, hq.back [_, _, _, _] ⟨rfl, rfl⟩ (by grind [Mode.opened?])⟩

/-- Trivia at a cursor fail in a comment that begins there. -/
theorem fault_of_trivia {c : Cursor} {fault : ScanFault} (h : trivia c = .error fault) :
    ∃ q, fault = .openComment q ∧ c.Covers q := by
  obtain ⟨q, hfault, hopened | hcovers⟩ := fault_of_readTrivia h
  · cases hopened
  · exact ⟨q, hfault, hcovers⟩

/-! ## Section 3 - the ways to fail -/

/-- The ways in which no base is read where a colon announces one. -/
theorem readBase_eq_error {n : String} {c : Cursor} {fault : ScanFault} :
    readBase n c = .error fault ↔ ∃ cs, c.rest = ':' :: cs ∧
      (trivia ⟨c.place.next ':', cs⟩ = .error fault ∨
        ∃ atBase, trivia ⟨c.place.next ':', cs⟩ = .ok atBase ∧
          ((ident? atBase = none ∧ fault = .missingBase atBase.place n) ∨
            ∃ word afterBase, ident? atBase = some (word, afterBase) ∧ trivia afterBase = .error fault)) := by
  unfold readBase
  split
  · rename_i cs hcs
    simp only [hcs, List.cons.injEq, true_and, exists_eq_left']
    rcases h₁ : trivia ⟨c.place.next ':', cs⟩ with fault' | atBase
    · simp [bind, Except.bind]
    · rcases h₂ : ident? atBase with _ | ⟨word, afterBase⟩
      · simp [bind, Except.bind, h₂, eq_comm]
      · rcases h₃ : trivia afterBase with fault' | d
        · simp [bind, Except.bind, h₂, h₃, and_assoc]
        · simp [bind, Except.bind, h₂, h₃, pure, Except.pure]
  · rename_i hcs
    simp only [reduceCtorEq, false_iff]
    rintro ⟨cs, h, -⟩
    exact hcs cs h

/-- The keyword and a name stand at a cursor, with trivia behind each. -/
def Named (c : Cursor) (name : String) (atBase : Cursor) : Prop :=
  ∃ afterWord atName afterName, ident? c = some ("class", afterWord) ∧ trivia afterWord = .ok atName ∧
    ident? atName = some (name, afterName) ∧ trivia afterName = .ok atBase

/-- The ways in which no declaration is read at a cursor, each with its fault. -/
inductive Fails (c : Cursor) (first : Char) : ScanFault → Prop where
  | stray (hword : ident? c = none) : Fails c first (.stray c.place first)
  | notKeyword {word : String} {afterWord : Cursor} (hword : ident? c = some (word, afterWord))
      (hne : word ≠ "class") : Fails c first (.notKeyword c.place word)
  | afterKeyword {afterWord : Cursor} {fault : ScanFault} (hword : ident? c = some ("class", afterWord))
      (htrivia : trivia afterWord = .error fault) : Fails c first fault
  | missingName {afterWord atName : Cursor} (hword : ident? c = some ("class", afterWord))
      (htrivia : trivia afterWord = .ok atName) (hname : ident? atName = none) :
      Fails c first (.missingName atName.place)
  | afterName {afterWord atName afterName : Cursor} {name : String} {fault : ScanFault}
      (hword : ident? c = some ("class", afterWord)) (htrivia : trivia afterWord = .ok atName)
      (hname : ident? atName = some (name, afterName)) (htrivia' : trivia afterName = .error fault) :
      Fails c first fault
  | base {atBase : Cursor} {name : String} {fault : ScanFault} (hnamed : Named c name atBase)
      (hbase : readBase name atBase = .error fault) : Fails c first fault
  | missingBody {atBase opening : Cursor} {name : String} {base : Option String} (hnamed : Named c name atBase)
      (hbase : readBase name atBase = .ok (base, opening)) (hopen : ¬ Opens opening) :
      Fails c first (.missingBody opening.place name)
  | body {atBase opening : Cursor} {name : String} {base : Option String} {cs : List Char} {fault : ScanFault}
      (hnamed : Named c name atBase) (hbase : readBase name atBase = .ok (base, opening))
      (hbrace : opening.rest = '{' :: cs) (hbody : readBody .code 0 (opening.place.next '{') cs = .error fault) :
      Fails c first fault
  | openBody {atBase opening : Cursor} {name : String} {base : Option String} {cs : List Char}
      (hnamed : Named c name atBase) (hbase : readBase name atBase = .ok (base, opening))
      (hbrace : opening.rest = '{' :: cs) (hbody : readBody .code 0 (opening.place.next '{') cs = .ok none) :
      Fails c first (.openBody opening.place name)

theorem fails_of_readDeclaration {c : Cursor} {first : Char} {fault : ScanFault}
    (h : readDeclaration c first = .error fault) : Fails c first fault := by
  -- The parts are taken in the order in which they are read, and the first that is missing tells the fault.
  unfold readDeclaration at h
  rcases h₁ : ident? c with _ | ⟨word, afterWord⟩
  · rw [h₁] at h
    cases h
    exact .stray h₁
  simp only [h₁] at h
  split at h
  · rename_i hne
    cases h
    exact .notKeyword h₁ hne
  rename_i hword
  obtain rfl : word = "class" := by simpa using hword
  rcases h₂ : trivia afterWord with fault | atName
  · simp only [h₂, bind, Except.bind] at h
    cases h
    exact .afterKeyword h₁ h₂
  simp only [h₂, bind, Except.bind] at h
  rcases h₃ : ident? atName with _ | ⟨name, afterName⟩
  · simp only [h₃] at h
    cases h
    exact .missingName h₁ h₂ h₃
  simp only [h₃] at h
  rcases h₄ : trivia afterName with fault | atBase
  · simp only [h₄] at h
    cases h
    exact .afterName h₁ h₂ h₃ h₄
  have hnamed : Named c name atBase := ⟨afterWord, atName, afterName, h₁, h₂, h₃, h₄⟩
  simp only [h₄] at h
  rcases h₅ : readBase name atBase with fault | ⟨base, opening⟩
  · simp only [h₅] at h
    cases h
    exact .base hnamed h₅
  simp only [h₅] at h
  split at h
  · rename_i cs hcs
    rcases h₇ : readBody .code 0 (opening.place.next '{') cs with fault | _ | ⟨body, after⟩
    · simp only [h₇] at h
      cases h
      exact .body hnamed h₅ hcs h₇
    · simp only [h₇] at h
      cases h
      exact .openBody hnamed h₅ hcs h₇
    · simp [h₇] at h
  · rename_i hcs
    cases h
    exact .missingBody hnamed h₅ fun ⟨cs, h⟩ => hcs cs h

theorem Fails.readDeclaration_eq {c : Cursor} {first : Char} {fault : ScanFault} (h : Fails c first fault) :
    readDeclaration c first = .error fault := by
  unfold readDeclaration
  cases h with
  | stray h₁ => simp only [h₁]
  | notKeyword h₁ hne => simp only [h₁, ne_eq, hne, not_false_eq_true, if_true]
  | afterKeyword h₁ h₂ => simp only [h₁, ne_eq, not_true_eq_false, if_false, h₂, bind, Except.bind]
  | missingName h₁ h₂ h₃ => simp only [h₁, ne_eq, not_true_eq_false, if_false, h₂, bind, Except.bind, h₃]
  | afterName h₁ h₂ h₃ h₄ =>
    simp only [h₁, ne_eq, not_true_eq_false, if_false, h₂, bind, Except.bind, h₃, h₄]
  | base hnamed h₅ =>
    obtain ⟨_, _, _, h₁, h₂, h₃, h₄⟩ := hnamed
    simp only [h₁, ne_eq, not_true_eq_false, if_false, h₂, bind, Except.bind, h₃, h₄, h₅]
  | missingBody hnamed h₅ hopen =>
    obtain ⟨_, _, _, h₁, h₂, h₃, h₄⟩ := hnamed
    simp only [h₁, ne_eq, not_true_eq_false, if_false, h₂, bind, Except.bind, h₃, h₄, h₅]
    split
    · rename_i cs hcs
      exact absurd ⟨cs, hcs⟩ hopen
    · rfl
  | body hnamed h₅ h₆ h₇ =>
    obtain ⟨_, _, _, h₁, h₂, h₃, h₄⟩ := hnamed
    simp only [h₁, ne_eq, not_true_eq_false, if_false, h₂, bind, Except.bind, h₃, h₄, h₅, h₆, h₇]
  | openBody hnamed h₅ h₆ h₇ =>
    obtain ⟨_, _, _, h₁, h₂, h₃, h₄⟩ := hnamed
    simp only [h₁, ne_eq, not_true_eq_false, if_false, h₂, bind, Except.bind, h₃, h₄, h₅, h₆, h₇]

/-- A declaration fails in one of these ways. -/
theorem readDeclaration_eq_error_iff {c : Cursor} {first : Char} {fault : ScanFault} :
    readDeclaration c first = .error fault ↔ Fails c first fault :=
  ⟨fails_of_readDeclaration, Fails.readDeclaration_eq⟩

/-- The two ways in which no unit is read: trivia fail, or a declaration does, the first or a later one. -/
theorem readUnit_eq_error {c : Cursor} {fault : ScanFault} :
    readUnit c = .error fault ↔ trivia c = .error fault ∨
      ∃ start first rest, trivia c = .ok start ∧ start.rest = first :: rest ∧
        (readDeclaration start first = .error fault ∨
          ∃ d after, readDeclaration start first = .ok (d, after) ∧ readUnit after = .error fault) := by
  rcases h : trivia c with fault' | start
  · simp [readUnit_of_fault h]
  rcases hrest : start.rest with _ | ⟨first, rest⟩
  · simp [readUnit_of_end h hrest, hrest]
  rw [readUnit_of_start h hrest]
  constructor
  · intro hread
    refine .inr ⟨start, first, rest, rfl, hrest, ?_⟩
    rcases hdecl : readDeclaration start first with fault' | ⟨d, after⟩
    · rw [hdecl] at hread
      cases hread
      exact .inl rfl
    rw [hdecl] at hread
    change (readUnit after).map (d :: ·) = _ at hread
    rcases hafter : readUnit after with fault' | others
    · rw [hafter] at hread
      cases hread
      exact .inr ⟨d, after, rfl, hafter⟩
    · rw [hafter] at hread
      cases hread
  · rintro (⟨⟨⟩⟩ | ⟨_, _, _, ⟨⟩, hcons, hfault⟩)
    cases hrest.symm.trans hcons
    rcases hfault with hdecl | ⟨d, after, hdecl, hafter⟩
    · rw [hdecl]
      rfl
    · rw [hdecl]
      change (readUnit after).map (d :: ·) = _
      rw [hafter]
      rfl

/-! ## Section 4 - places of faults -/

theorem Named.reads {c atBase : Cursor} {name : String} (h : Named c name atBase) : ∃ text, c.Reads text atBase := by
  obtain ⟨afterWord, atName, afterName, h₁, h₂, h₃, h₄⟩ := h
  obtain ⟨gap, hgap⟩ := trivia_reads h₂
  obtain ⟨gap', hgap'⟩ := trivia_reads h₄
  exact ⟨_, (ident?_reads h₁).1.trans (hgap.trans ((ident?_reads h₃).1.trans hgap'))⟩

theorem covers_of_trivia {c : Cursor} {fault : ScanFault} (h : trivia c = .error fault) :
    c.Covers fault.diagnostic.place := by
  obtain ⟨q, rfl, hq⟩ := fault_of_trivia h
  exact hq

theorem covers_of_readBase {n : String} {c : Cursor} {fault : ScanFault} (h : readBase n c = .error fault) :
    c.Covers fault.diagnostic.place := by
  obtain ⟨cs, hcs, htrivia⟩ := readBase_eq_error.1 h
  have hcolon : c.Reads [':'] ⟨c.place.next ':', cs⟩ := ⟨hcs, rfl⟩
  rcases htrivia with h₁ | ⟨atBase, h₁, ⟨-, rfl⟩ | ⟨word, afterBase, h₂, h₃⟩⟩
  · exact hcolon.covers (covers_of_trivia h₁)
  · obtain ⟨gap, hgap⟩ := trivia_reads h₁
    exact (hcolon.trans hgap).covers atBase.covers_place
  · obtain ⟨gap, hgap⟩ := trivia_reads h₁
    exact (hcolon.trans (hgap.trans (ident?_reads h₂).1)).covers (covers_of_trivia h₃)

/-- A declaration that is not read is reported at a place of the text. -/
theorem Fails.covers {c : Cursor} {first : Char} {fault : ScanFault} (h : Fails c first fault) :
    c.Covers fault.diagnostic.place := by
  cases h with
  | stray hword => exact c.covers_place
  | notKeyword hword hne => exact c.covers_place
  | afterKeyword hword htrivia => exact (ident?_reads hword).1.covers (covers_of_trivia htrivia)
  | @missingName afterWord atName hword htrivia hname =>
    obtain ⟨gap, hgap⟩ := trivia_reads htrivia
    exact ((ident?_reads hword).1.trans hgap).covers atName.covers_place
  | afterName hword htrivia hname htrivia' =>
    obtain ⟨gap, hgap⟩ := trivia_reads htrivia
    exact ((ident?_reads hword).1.trans (hgap.trans (ident?_reads hname).1)).covers (covers_of_trivia htrivia')
  | base hnamed hbase =>
    obtain ⟨header, hheader⟩ := hnamed.reads
    exact hheader.covers (covers_of_readBase hbase)
  | @missingBody atBase opening name base hnamed hbase hopen =>
    obtain ⟨header, hheader⟩ := hnamed.reads
    obtain ⟨tail, htail⟩ := readBase_reads hbase
    exact (hheader.trans htail).covers opening.covers_place
  | @body atBase opening name base cs fault hnamed hbase hbrace hbody =>
    obtain ⟨header, hheader⟩ := hnamed.reads
    obtain ⟨tail, htail⟩ := readBase_reads hbase
    have hopening : opening.Reads ['{'] ⟨opening.place.next '{', cs⟩ := ⟨hbrace, rfl⟩
    obtain ⟨q, hfault, hopened | hcovers⟩ := fault_of_readBody hbody
    · cases hopened
    · have hplace : fault.diagnostic.place = q := by rcases hfault with rfl | rfl <;> rfl
      rw [hplace]
      exact (hheader.trans (htail.trans hopening)).covers hcovers
  | @openBody atBase opening name base cs hnamed hbase hbrace hbody =>
    obtain ⟨header, hheader⟩ := hnamed.reads
    obtain ⟨tail, htail⟩ := readBase_reads hbase
    exact (hheader.trans htail).covers opening.covers_place

/-- A text that is no unit is reported at one of its places. -/
theorem covers_of_readUnit {c : Cursor} {fault : ScanFault} (h : readUnit c = .error fault) :
    c.Covers fault.diagnostic.place := by
  induction hlength : c.rest.length using Nat.strong_induction_on generalizing c with
  | _ n ih =>
    rcases readUnit_eq_error.1 h with htrivia | ⟨start, first, rest, htrivia, hrest, hdecl | ⟨d, after, hd, hafter⟩⟩
    · exact covers_of_trivia htrivia
    · obtain ⟨gap, hgap⟩ := trivia_reads htrivia
      exact hgap.covers (readDeclaration_eq_error_iff.1 hdecl).covers
    · obtain ⟨gap, hgap⟩ := trivia_reads htrivia
      obtain ⟨text, hne, htext⟩ := readDeclaration_reads hd
      have hlt : after.rest.length < n := hlength ▸ Nat.lt_of_lt_of_le (htext.length_lt hne) hgap.length_le
      exact (hgap.trans htext).covers (ih _ hlt hafter rfl)

end Scan

open Scan

/-- A source that is no unit is reported at one of its places. -/
theorem place_of_scan_fault {source : String} {fault : ScanFault} (h : scan source = .error fault) :
    ∃ text, text <+: source.toList ∧ fault.diagnostic.place = .behind text := by
  obtain ⟨text, htext, hplace⟩ := covers_of_readUnit h
  refine ⟨text, htext, ?_⟩
  rw [hplace, Cursor.ofText, Place.start_eq_behind, Place.advance_behind, List.nil_append]

end HotReload
