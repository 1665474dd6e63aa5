import HotReload.Proofs.Unit.Failure

/-! # Cutoff: what is said about a text that is no unit, with a class behind it

    A text that is no unit is still none with a class on the line after it.  What is said
    about it, however, need not stay the same.  If the text ends where a name, a base or a
    brace is due, the reader goes on into the line: it takes the keyword there for the word
    that is missing, and misses a brace afterwards.

    So faults are of two kinds.  One that breaks off becomes the fault of a missing brace
    on the line after the text, and any other is reported as if the line were not there. -/

namespace HotReload

/-! ## Section 1 - faults that break off -/

/-- Whether a text that ends at a place breaks off there: a name, a base or a brace is due at its end. -/
def ScanFault.AtEnd (stop : Place) : ScanFault → Prop
  | .missingName p | .missingBase p _ | .missingBody p _ => p = stop
  | _ => False

instance (stop : Place) (fault : ScanFault) : Decidable (fault.AtEnd stop) := by
  cases fault <;> unfold ScanFault.AtEnd <;> infer_instance

/-- What becomes of a fault of a text that ends at a place when a class is declared on the line after it. The
    keyword there stands for a name or a base that is missing, and behind it a brace is missed. -/
def ScanFault.readOn (stop : Place) : ScanFault → ScanFault
  | .missingName p => if p = stop then .missingBody ⟨stop.line + 1, 7⟩ "class" else .missingName p
  | .missingBase p name => if p = stop then .missingBody ⟨stop.line + 1, 7⟩ name else .missingBase p name
  | .missingBody p name => if p = stop then .missingBody ⟨stop.line + 1, 1⟩ name else .missingBody p name
  | fault => fault

namespace ScanFault

theorem readOn_of_not_atEnd {stop : Place} {fault : ScanFault} (h : ¬ fault.AtEnd stop) :
    fault.readOn stop = fault := by
  cases fault with
  | missingName p => exact if_neg h
  | missingBase p name => exact if_neg h
  | missingBody p name => exact if_neg h
  | _ => rfl

/-- A fault that breaks off is reported below the text. -/
theorem readOn_of_atEnd {stop : Place} {fault : ScanFault} (h : fault.AtEnd stop) :
    ∃ p name, fault.readOn stop = .missingBody p name ∧ stop.line < p.line := by
  cases fault with
  | missingName p => exact ⟨_, _, if_pos h, Nat.lt_succ_self stop.line⟩
  | missingBase p name => exact ⟨_, _, if_pos h, Nat.lt_succ_self stop.line⟩
  | missingBody p name => exact ⟨_, _, if_pos h, Nat.lt_succ_self stop.line⟩
  | _ => exact h.elim

end ScanFault

namespace Scan

/-! ## Section 2 - what the line after a text changes -/

section
variable {name : List Char} (hname : IsName name)
include hname

/-- At the end of a text the keyword of the line is read, and the name behind it is no brace. -/
theorem keyword_beyond {c : Cursor} (h : c.rest = []) :
    ∃ afterWord, ident? (beyond (emptyClass name) c) = some ("class", afterWord) ∧
      trivia afterWord = .ok ⟨⟨c.stop.line + 1, 7⟩, name ++ " {}\n".toList⟩ := by
  have hstop : c.stop = c.place := (Cursor.place_eq_stop_iff.2 h).symm
  rw [beyond, if_pos h, ident?_emptyClass, hstop]
  exact ⟨_, rfl, hname.trivia_space _ _⟩

theorem not_opens_name (p : Place) (rest : List Char) : ¬ Opens ⟨p, name ++ rest⟩ := by
  obtain ⟨x, xs, rfl, hx⟩ := hname.start
  exact not_opens_of_word (isIdentPart_of_isIdentStart hx)

theorem readBase_name (n : String) (p : Place) (rest : List Char) :
    readBase n ⟨p, name ++ rest⟩ = .ok (none, ⟨p, name ++ rest⟩) := by
  obtain ⟨x, xs, rfl, hx⟩ := hname.start
  exact readBase_word n (isIdentPart_of_isIdentStart hx)

omit hname in
/-- Short of its end no word is found in a text that the line would give it. -/
theorem ident?_beyond_none {c : Cursor} (hne : c.rest ≠ []) (h : ident? c = none) :
    ident? (beyond (emptyClass name) c) = none := by
  rw [beyond, if_neg hne, ident?_further hne, h]
  rfl

omit hname in
theorem beyond_colon (name : List Char) {c : Cursor} {cs : List Char} (h : c.rest = ':' :: cs) :
    (beyond (emptyClass name) c).place = c.place ∧
      (beyond (emptyClass name) c).rest = ':' :: (cs ++ '\n' :: emptyClass name) := by
  rw [beyond, if_neg (by simp [h]), further, h]
  exact ⟨rfl, rfl⟩

/-- A base is read the same with a line behind the text, whether a body opens after it or not. -/
theorem readBase_beyond_ok {n : String} {c d : Cursor} {base : Option String}
    (h : readBase n c = .ok (base, d)) :
    readBase n (beyond (emptyClass name) c) = .ok (base, beyond (emptyClass name) d) := by
  rcases readBase_eq_ok.1 h with ⟨hcs, rfl, rfl⟩ | ⟨cs, atBase, word, afterBase, hcs, h₁, h₂, h₃, rfl⟩
  · refine readBase_eq_ok.2 (.inl ⟨?_, rfl, rfl⟩)
    intro cs hcolon
    by_cases hnil : d.rest = []
    · rw [beyond, if_pos hnil] at hcolon
      exact absurd (List.cons.inj hcolon).1 (by decide)
    · rw [beyond, if_neg hnil, further] at hcolon
      obtain ⟨x, xs, hx⟩ := List.exists_cons_of_ne_nil hnil
      rw [hx, List.cons_append] at hcolon
      exact hcs xs (by rw [hx, (List.cons.inj hcolon).1])
  · obtain ⟨hplace, hrest⟩ := beyond_colon name hcs
    refine readBase_eq_ok.2 (.inr ⟨_, _, word, _, hrest, ?_, ident?_beyond_of h₂,
      (trivia_further hname).2 ⟨d, h₃, rfl⟩, rfl⟩)
    rw [hplace]
    exact (trivia_further hname).2 ⟨atBase, h₁, rfl⟩

/-- A base fails the same with a line behind the text, unless the text ends where the base is due: then the keyword
    of the line is read as the base. -/
theorem readBase_beyond_error {n : String} {c : Cursor} {fault : ScanFault} (h : readBase n c = .error fault) :
    (¬ fault.AtEnd c.stop ∧ readBase n (beyond (emptyClass name) c) = .error fault) ∨
      (fault = .missingBase c.stop n ∧ readBase n (beyond (emptyClass name) c) =
        .ok (some "class", ⟨⟨c.stop.line + 1, 7⟩, name ++ " {}\n".toList⟩)) := by
  obtain ⟨cs, hcs, hfault⟩ := readBase_eq_error.1 h
  obtain ⟨hplace, hrest⟩ := beyond_colon name hcs
  have htrivia := trivia_further_eq hname ⟨c.place.next ':', cs⟩
  have hcolon : c.Reads [':'] ⟨c.place.next ':', cs⟩ := ⟨hcs, rfl⟩
  rcases hfault with h₁ | ⟨atBase, h₁, ⟨h₂, rfl⟩ | ⟨word, afterBase, h₂, h₃⟩⟩
  · obtain ⟨q, rfl, -⟩ := fault_of_trivia h₁
    refine .inl ⟨id, readBase_eq_error.2 ⟨_, hrest, .inl ?_⟩⟩
    rw [hplace]
    exact htrivia.trans (by rw [h₁]; rfl)
  · obtain ⟨gap, hgap⟩ := trivia_reads h₁
    have hstop : atBase.stop = c.stop := (hcolon.trans hgap).stop_eq
    have h₁' : trivia ⟨(beyond (emptyClass name) c).place.next ':', cs ++ '\n' :: emptyClass name⟩ =
        .ok (beyond (emptyClass name) atBase) := by
      rw [hplace]
      exact htrivia.trans (by rw [h₁]; rfl)
    by_cases hnil : atBase.rest = []
    · obtain ⟨afterWord, hword, hgap'⟩ := keyword_beyond hname hnil
      rw [hstop] at hgap'
      refine .inr ⟨by rw [Cursor.place_eq_stop_iff.2 hnil, hstop], ?_⟩
      exact readBase_eq_ok.2 (.inr ⟨_, _, "class", afterWord, hrest, h₁', hword, hgap', rfl⟩)
    · refine .inl ⟨?_, readBase_eq_error.2 ⟨_, hrest, .inr ⟨_, h₁', .inl ⟨ident?_beyond_none hnil h₂, ?_⟩⟩⟩⟩
      · intro hend
        exact hnil (Cursor.place_eq_stop_iff.1 (hend.trans hstop.symm))
      · rw [beyond, if_neg hnil]
        rfl
  · obtain ⟨q, rfl, -⟩ := fault_of_trivia h₃
    refine .inl ⟨id, readBase_eq_error.2 ⟨_, hrest, .inr ⟨beyond (emptyClass name) atBase, ?_,
      .inr ⟨word, _, ident?_beyond_of h₂, ?_⟩⟩⟩⟩
    · rw [hplace]
      exact htrivia.trans (by rw [h₁]; rfl)
    · rw [trivia_further_eq hname, h₃]
      rfl

theorem named_further {c atBase : Cursor} {n : String} (h : Named c n atBase) :
    Named (further (emptyClass name) c) n (beyond (emptyClass name) atBase) := by
  obtain ⟨afterWord, atName, afterName, h₁, h₂, h₃, h₄⟩ := h
  exact ⟨_, _, _, ident?_further_of h₁ _, (trivia_further hname).2 ⟨atName, h₂, rfl⟩, ident?_beyond_of h₃,
    (trivia_further hname).2 ⟨atBase, h₄, rfl⟩⟩

omit hname in
theorem place_beyond {c : Cursor} (hne : c.rest ≠ []) : (beyond (emptyClass name) c).place = c.place := by
  rw [beyond, if_neg hne]
  rfl

/-- Where a name is missing the line is short of one too, or its keyword is taken for the name. -/
theorem Fails.readOn_missingName {c afterWord atName : Cursor} {first : Char}
    (hword : ident? c = some ("class", afterWord)) (htrivia : trivia afterWord = .ok atName)
    (hmissing : ident? atName = none) :
    Fails (further (emptyClass name) c) first ((ScanFault.missingName atName.place).readOn c.stop) := by
  obtain ⟨gap, hgap⟩ := trivia_reads htrivia
  have hstop : atName.stop = c.stop := ((ident?_reads hword).1.trans hgap).stop_eq
  have hword' := ident?_further_of hword (emptyClass name)
  have htrivia' := (trivia_further hname).2 ⟨atName, htrivia, rfl⟩
  by_cases hnil : atName.rest = []
  · obtain ⟨afterName, hkeyword, hgap'⟩ := keyword_beyond hname hnil
    have hend : atName.place = c.stop := (Cursor.place_eq_stop_iff.2 hnil).trans hstop
    have hreadOn : (ScanFault.missingName atName.place).readOn c.stop =
        .missingBody ⟨c.stop.line + 1, 7⟩ "class" := if_pos hend
    rw [hstop] at hgap'
    rw [hreadOn]
    exact .missingBody ⟨_, _, afterName, hword', htrivia', hkeyword, hgap'⟩ (readBase_name hname _ _ _)
      (not_opens_name hname _ _)
  · have hend : ¬ (ScanFault.missingName atName.place).AtEnd c.stop := fun hend =>
      hnil (Cursor.place_eq_stop_iff.1 (hend.trans hstop.symm))
    rw [ScanFault.readOn_of_not_atEnd hend, ← place_beyond hnil]
    exact .missingName hword' htrivia' (ident?_beyond_none hnil hmissing)

/-- Where a brace is missing it is missing with the line too, which has none to begin with. -/
theorem Fails.readOn_missingBody {c atBase opening : Cursor} {first : Char} {n : String} {base : Option String}
    (hnamed : Named c n atBase) (hbase : readBase n atBase = .ok (base, opening)) (hopen : ¬ Opens opening) :
    Fails (further (emptyClass name) c) first ((ScanFault.missingBody opening.place n).readOn c.stop) := by
  obtain ⟨header, hheader⟩ := hnamed.reads
  obtain ⟨tail, htail⟩ := readBase_reads hbase
  have hstop : opening.stop = c.stop := (hheader.trans htail).stop_eq
  have hreadOn : (ScanFault.missingBody opening.place n).readOn c.stop =
      .missingBody (beyond (emptyClass name) opening).place n := by
    by_cases hnil : opening.rest = []
    · have hend : opening.place = c.stop := (Cursor.place_eq_stop_iff.2 hnil).trans hstop
      rw [beyond, if_pos hnil, hend]
      exact if_pos rfl
    · rw [place_beyond hnil]
      exact if_neg fun hend => hnil (Cursor.place_eq_stop_iff.1 (hend.trans hstop.symm))
  rw [hreadOn]
  exact .missingBody (named_further hname hnamed) (readBase_beyond_ok hname hbase)
    fun hbeyond => hopen (opens_beyond hbeyond).1

/-- A body that the text opens is the same with a line behind the text, as far as the text goes. -/
theorem body_beyond {opening : Cursor} {cs : List Char} (hbrace : opening.rest = '{' :: cs) :
    (beyond (emptyClass name) opening).place = opening.place ∧
      (beyond (emptyClass name) opening).rest = '{' :: (cs ++ '\n' :: emptyClass name) ∧
      readBody .code 0 ((beyond (emptyClass name) opening).place.next '{') (cs ++ '\n' :: emptyClass name) =
        (readBody .code 0 (opening.place.next '{') cs).map (reach (emptyClass name)) := by
  rw [beyond_of_opens ⟨cs, hbrace⟩, further, hbrace]
  exact ⟨rfl, rfl, readBody_further hname _ cs⟩

/-- A declaration that fails in one way fails in that way with a line behind the text, or it breaks off. -/
theorem Fails.readOn {c : Cursor} {first : Char} {fault : ScanFault} (hne : c.rest ≠ []) (h : Fails c first fault) :
    Fails (further (emptyClass name) c) first (fault.readOn c.stop) := by
  cases h with
  | stray h₁ =>
    refine .stray ?_
    rw [ident?_further hne, h₁]
    rfl
  | notKeyword h₁ hclass => exact .notKeyword (ident?_further_of h₁ _) hclass
  | afterKeyword h₁ h₂ =>
    obtain ⟨q, rfl, -⟩ := fault_of_trivia h₂
    refine .afterKeyword (ident?_further_of h₁ _) ?_
    rw [trivia_further_eq hname, h₂]
    rfl
  | missingName h₁ h₂ h₃ => exact .readOn_missingName hname h₁ h₂ h₃
  | @afterName afterWord atName afterName n fault h₁ h₂ h₃ h₄ =>
    obtain ⟨q, rfl, -⟩ := fault_of_trivia h₄
    refine .afterName (ident?_further_of h₁ _) ((trivia_further hname).2 ⟨atName, h₂, rfl⟩) (ident?_beyond_of h₃) ?_
    rw [trivia_further_eq hname, h₄]
    rfl
  | @base atBase n fault hnamed hbase =>
    obtain ⟨header, hheader⟩ := hnamed.reads
    rcases readBase_beyond_error hname hbase with ⟨hend, hsame⟩ | ⟨rfl, hclass⟩
    · rw [hheader.stop_eq] at hend
      rw [ScanFault.readOn_of_not_atEnd hend]
      exact .base (named_further hname hnamed) hsame
    -- the keyword of the line is the base, and the name behind it stands where the brace is due
    · rw [hheader.stop_eq] at hclass ⊢
      have hreadOn : (ScanFault.missingBase c.stop n).readOn c.stop = .missingBody ⟨c.stop.line + 1, 7⟩ n :=
        if_pos rfl
      rw [hreadOn]
      exact .missingBody (named_further hname hnamed) hclass (not_opens_name hname _ _)
  | missingBody hnamed hbase hopen => exact .readOn_missingBody hname hnamed hbase hopen
  | @body atBase opening n base cs fault hnamed hbase hbrace hbody =>
    obtain ⟨-, hbrace', hbody'⟩ := body_beyond hname hbrace
    have hreadOn : fault.readOn c.stop = fault := by
      obtain ⟨q, rfl | rfl, -⟩ := fault_of_readBody hbody <;> rfl
    rw [hreadOn]
    refine .body (named_further hname hnamed) (readBase_beyond_ok hname hbase) hbrace' ?_
    rw [hbody', hbody]
    rfl
  | @openBody atBase opening n base cs hnamed hbase hbrace hbody =>
    obtain ⟨hplace, hbrace', hbody'⟩ := body_beyond hname hbrace
    have hreadOn : (ScanFault.openBody opening.place n).readOn c.stop =
        .openBody (beyond (emptyClass name) opening).place n := by rw [hplace]; rfl
    rw [hreadOn]
    refine .openBody (named_further hname hnamed) (readBase_beyond_ok hname hbase) hbrace' ?_
    rw [hbody', hbody]
    rfl

/-- A text that is no unit fails in its own way with a line behind it, or it breaks off. -/
theorem readUnit_readOn {c : Cursor} {fault : ScanFault} (h : readUnit c = .error fault) :
    readUnit (further (emptyClass name) c) = .error (fault.readOn c.stop) := by
  induction hlength : c.rest.length using Nat.strong_induction_on generalizing c with
  | _ n ih =>
    rcases readUnit_eq_error.1 h with htrivia | ⟨start, first, rest, htrivia, hrest, hfault⟩
    · obtain ⟨q, rfl, -⟩ := fault_of_trivia htrivia
      refine readUnit_eq_error.2 (.inl ?_)
      rw [trivia_further_eq hname, htrivia]
      rfl
    obtain ⟨gap, hgap⟩ := trivia_reads htrivia
    have hne : start.rest ≠ [] := by simp [hrest]
    have htrivia' := (trivia_further hname).2 ⟨start, htrivia, rfl⟩
    rw [beyond, if_neg hne] at htrivia'
    refine readUnit_eq_error.2 (.inr ⟨_, first, rest ++ '\n' :: emptyClass name, htrivia', ?_, ?_⟩)
    · rw [further, hrest, List.cons_append]
    rcases hfault with hdecl | ⟨d, after, hd, hafter⟩
    · rw [← hgap.stop_eq]
      exact .inl (readDeclaration_eq_error_iff.2 ((readDeclaration_eq_error_iff.1 hdecl).readOn hname hne))
    · obtain ⟨text, htext, hreads⟩ := readDeclaration_reads hd
      have hlt : after.rest.length < n := hlength ▸ Nat.lt_of_lt_of_le (hreads.length_lt htext) hgap.length_le
      rw [← (hgap.trans hreads).stop_eq]
      exact .inr ⟨d, _, (readDeclaration_further hname hne).2 ⟨after, hd, rfl⟩, ih _ hlt hafter rfl⟩

end

end Scan

open Scan

/-- What is said about a source with an empty class on the line after it is told from what is said about the source
    alone. -/
theorem scan_line_error {source line : String} {name : List Char} (hname : IsName name)
    (hline : line.toList = '\n' :: emptyClass name) {fault : ScanFault} (h : scan source = .error fault) :
    scan (source ++ line) = .error (fault.readOn (.behind source.toList)) := by
  have hstop : (Cursor.ofText source.toList).stop = .behind source.toList := by
    rw [Cursor.stop, Cursor.ofText, Place.start_eq_behind, Place.advance_behind, List.nil_append]
  have htext : scan (source ++ line) = readUnit (further (emptyClass name) (.ofText source.toList)) := by
    rw [scan, String.toList_append, hline]
    rfl
  rw [htext, ← hstop]
  exact readUnit_readOn hname h

end HotReload
