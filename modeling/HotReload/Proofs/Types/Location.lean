import HotReload.Proofs.Types.Report
import HotReload.Proofs.Unit.Grammar

/-! # Location: where a fault of a body is reported

    A fault of a body is found while the body is read by itself, as if its first
    character were the first of a text.  It is reported in the unit.  So two counts of
    lines and columns meet: that of the scanner, which has come through the comments and
    headers in front of the body, and that of the parser, which begins anew.

    Only the first line of a body stands behind something else on its line, so only there
    columns move, and lines move by the lines in front of the body throughout. -/

namespace HotReload

open Scan

/-! ## Section 1 - places behind two texts -/

namespace Place

/-- The place behind two texts, told from the places behind each. -/
theorem behind_append (a b : List Char) : behind (a ++ b) =
    if (behind b).line = 1 then ⟨(behind a).line, (behind a).column + (behind b).column - 1⟩
    else ⟨(behind a).line + (behind b).line - 1, (behind b).column⟩ := by
  by_cases hb : '\n' ∈ b
  · have hline : (behind b).line ≠ 1 := by
      have hcount : 0 < b.count '\n' := List.count_pos_iff.2 hb
      simp only [behind]
      omega
    -- The last line begins inside of the second text.
    have htake : (b.reverse ++ a.reverse).takeWhile (· ≠ '\n') = b.reverse.takeWhile (· ≠ '\n') := by
      rw [List.takeWhile_append, if_neg]
      intro hlength
      have hall := List.takeWhile_eq_self_iff.1 (List.takeWhile_sublist _ |>.eq_of_length hlength)
      exact absurd rfl (of_decide_eq_true (hall '\n' (List.mem_reverse.2 hb)))
    rw [if_neg hline]
    simp only [behind, List.reverse_append, htake, List.count_append, mk.injEq, and_true]
    omega
  · have hplace : behind b = ⟨1, b.length + 1⟩ := behind_of_not_mem hb
    have htake : (b.reverse ++ a.reverse).takeWhile (· ≠ '\n') = b.reverse ++ a.reverse.takeWhile (· ≠ '\n') := by
      refine List.takeWhile_append_of_pos fun c hc => decide_eq_true ?_
      rintro rfl
      exact hb (List.mem_reverse.1 hc)
    rw [hplace, if_pos rfl]
    simp only [behind, List.reverse_append, htake, List.count_append, List.count_eq_zero_of_not_mem hb,
      List.length_append, List.length_reverse, mk.injEq, true_and]
    omega

end Place

/-- The ways in which the place behind a text is told: by its line and its column, or, where a line after the
    first begins, by the line alone. -/
inductive Tells (text : List Char) : Nat × Option Nat → Prop where
  | column : Tells text ((Place.behind text).line, some (Place.behind text).column)
  | line (hline : (Place.behind text).line ≠ 1) (hcolumn : (Place.behind text).column = 1) :
      Tells text ((Place.behind text).line, none)

/-- A place in a body is carried over to the unit. -/
theorem locate_of_tells {d : Declaration} {before text : List Char} (hbody : d.bodyPlace = .behind before)
    {position : Nat × Option Nat} (h : Tells text position) :
    d.locate (some position) = .behind (before ++ text) := by
  rw [Place.behind_append]
  cases h with
  | column =>
    by_cases hline : (Place.behind text).line = 1
    · rw [if_pos hline, hline, Declaration.locate, hbody]
    · rw [if_neg hline, Declaration.locate, hbody]
      exact fun h => absurd h hline
  | line hline hcolumn => rw [if_neg hline, Declaration.locate, hbody, hcolumn]

/-! ## Section 2 - declarations in their unit -/

namespace Scan

/-- What stands before a character stands at the end of a text too. -/
theorem fits_end {items : List Item} {next : Option Char} (h : Fits items next) : Fits items none := by
  induction items with
  | nil => trivial
  | cons i items ih =>
    obtain ⟨hi, hitems⟩ := h
    refine ⟨?_, ih hitems⟩
    rcases hnext : (spell items).head? with _ | c
    · rw [hnext] at hi
      cases i with
      | char c => exact ⟨hi.1, hi.2.1, hi.2.2.1, fun _ => ⟨by simp, by simp⟩⟩
      | string quote text => exact hi
      | literal escaped c closed => exact ⟨hi.1, fun _ => by simp⟩
      | lineComment text => exact ⟨hi.1, .inl rfl⟩
      | blockComment text => exact hi
    · rw [hnext] at hi
      exact hi

/-- Trivia in front of a text are trivia in front of its beginning. -/
theorem isTrivia_front {gap front rest : List Char} (h : IsTrivia gap (front ++ rest).head?) :
    IsTrivia gap front.head? := by
  cases front with
  | nil =>
    obtain ⟨items, hspell, hfits, htrivia⟩ := h
    exact ⟨items, hspell, fits_end hfits, htrivia⟩
  | cons c front => exact h

/-- The text of declarations splits at each of them. -/
theorem declared_split {before text : List Char} {earlier later : List Declaration} {d : Declaration}
    (h : Declared before text (earlier ++ d :: later)) :
    ∃ front header after, text = front ++ (header ++ '{' :: (d.body.toList ++ '}' :: after)) ∧
      Declared before front earlier ∧ IsHeader ('{' :: (d.body.toList ++ '}' :: after)) header d.name d.base ∧
      IsBody d.body.toList ∧ d.place = .behind (before ++ front) ∧
      d.bodyPlace = .behind (before ++ front ++ (header ++ ['{'])) := by
  induction earlier generalizing before text with
  | nil =>
    cases h with
    | @more _ header body gap rest name base _ hheader hbody hgap hothers =>
      refine ⟨[], header, gap ++ rest, ?_, .none _, ?_, ?_, ?_, ?_⟩
      · simp
      · simpa using hheader
      · simpa using hbody
      · simp
      · simp
  | cons x earlier ih =>
    cases h with
    | @more _ header body gap rest name base _ hheader hbody hgap hothers =>
      obtain ⟨front, header', after, rfl, hfront, hheader', hbody', hplace, hbodyPlace⟩ := ih hothers
      refine ⟨header ++ '{' :: (body ++ '}' :: (gap ++ front)), header', after, ?_, ?_, hheader', hbody', ?_, ?_⟩
      · simp
      · exact .more (isHeader_congr hheader) hbody (isTrivia_front hgap) hfront
      · simpa using hplace
      · simpa using hbodyPlace

end Scan

/-- A declaration in its unit: the text up to it is a unit of the declarations in front of it, then come its header,
    its body in braces, and what follows. -/
structure StandsIn (source : String) (earlier : List Declaration) (d : Declaration)
    (front header after : List Char) : Prop where
  text : source.toList = front ++ (header ++ '{' :: (d.body.toList ++ '}' :: after))
  front : scan (String.ofList front) = .ok earlier
  header : IsHeader ('{' :: (d.body.toList ++ '}' :: after)) header d.name d.base
  body : IsBody d.body.toList

/-- Every declaration of a unit stands in it, and the scanner knows where its body begins. -/
theorem standsIn_of_scan {source : String} {earlier later : List Declaration} {d : Declaration}
    (h : scan source = .ok (earlier ++ d :: later)) :
    ∃ front header after, StandsIn source earlier d front header after ∧ d.place = .behind front ∧
      d.bodyPlace = .behind (front ++ (header ++ ['{'])) := by
  obtain ⟨gap, rest, hsource, hgap, hdeclared⟩ := (scan_eq_ok_iff source _).1 h
  obtain ⟨front, header, after, rfl, hfront, hheader, hbody, hplace, hbodyPlace⟩ := declared_split hdeclared
  refine ⟨gap ++ front, header, after, ⟨?_, ?_, hheader, hbody⟩, hplace, hbodyPlace⟩
  · rw [hsource, List.append_assoc]
  · refine (scan_eq_ok_iff _ _).2 ⟨gap, front, String.toList_ofList, isTrivia_front hgap, hfront⟩

/-! ## Section 3 - the order of the errors -/

namespace Compiler

/-- The errors that are reported about a declaration, given the declarations in front of it. -/
def ownErrors (earlier : List Declaration) (d : Declaration) : Report :=
  if d.name ∈ earlier.map Declaration.name then [repetition d] else bodyErrors d

theorem errors_append (r r' : Report) : Report.errors (r ++ r') = Report.errors r ++ Report.errors r' :=
  List.filter_append r r'

/-- Of what is said about a declaration, the error of its body is an error, and the rest is none. -/
theorem errors_compileDeclaration (c : Compiler) (d : Declaration) :
    (c.compileDeclaration d).1.errors = bodyErrors d := by
  have hbody : (bodyErrors d).errors = bodyErrors d := by
    refine List.filter_eq_self.2 fun x hx => ?_
    unfold bodyErrors at hx
    split at hx
    · cases hx
    · rw [List.mem_singleton.1 hx]
      rfl
  rw [compileDeclaration_report, errors_append, errors_append, hbody,
    Report.hasErrors_eq_false_iff.1 (hasErrors_baseWarnings d),
    Report.hasErrors_eq_false_iff.1 (c.hasErrors_redefinitionWarnings d)]
  rfl

/-- Declarations are gone through in their order, and each adds its own errors. -/
theorem errors_compileAll (c : Compiler) (seen : List String) (earlier later : List Declaration)
    (hseen : ∀ name, name ∈ seen ↔ name ∈ earlier.map Declaration.name) :
    (c.compileAll seen later).1.errors =
      (later.zipIdx earlier.length).flatMap fun x => ownErrors ((earlier ++ later).take x.2) x.1 := by
  induction later generalizing seen earlier with
  | nil => rfl
  | cons d later ih =>
    have hsplit : earlier ++ d :: later = (earlier ++ [d]) ++ later := by simp
    have hlength : earlier.length + 1 = (earlier ++ [d]).length := by simp
    rw [compileAll_cons, List.zipIdx_cons, List.flatMap_cons, List.take_left, hlength, hsplit, ownErrors]
    by_cases h : d.name ∈ seen
    · rw [if_pos h, if_pos ((hseen _).1 h), ← ih seen]
      · exact List.filter_cons_of_pos rfl
      · intro name
        have hname := (hseen d.name).1 h
        simp only [hseen, List.map_append, List.map_cons, List.map_nil, List.mem_append, List.mem_singleton]
        constructor
        · exact .inl
        · rintro (hmem | rfl)
          · exact hmem
          · exact hname
    · rw [if_neg h, if_neg fun hmem => h ((hseen _).2 hmem), errors_append, errors_compileDeclaration,
        ← ih (d.name :: seen)]
      intro name
      simp only [List.mem_cons, hseen, List.map_append, List.map_cons, List.map_nil, List.mem_append,
        List.not_mem_nil, or_false]
      exact or_comm

/-- The errors of a unit come in the order of its declarations, and a fault of a body at one of its characters
    is reported at the place of this character in the unit. -/
theorem faults_located (c : Compiler) {source : String} {ds : List Declaration} (h : scan source = .ok ds) :
    (c.compile source).2.diagnostics.errors = ds.zipIdx.flatMap (fun x => ownErrors (ds.take x.2) x.1) ∧
    ∀ earlier d later, ds = earlier ++ d :: later →
      ∃ front header after, StandsIn source earlier d front header after ∧
        ∀ text rest, d.body.toList = text ++ rest →
          source.toList = (front ++ (header ++ '{' :: text)) ++ (rest ++ '}' :: after) ∧
          (∀ position, Tells text position →
            d.locate (some position) = .behind (front ++ (header ++ '{' :: text))) ∧
          ∀ fault : Body.ParseFault, fault.place = .behind text →
            d.parseDiagnostic fault =
              .error (.behind (front ++ (header ++ '{' :: text))) s!"in '{d.name}': {fault.cause.message}" := by
  constructor
  · rw [diagnostics_of_scan h]
    have herrors := c.errors_compileAll [] [] ds (by simp)
    simpa using herrors
  · rintro earlier d later rfl
    obtain ⟨front, header, after, hstands, -, hbodyPlace⟩ := standsIn_of_scan h
    refine ⟨front, header, after, hstands, ?_⟩
    intro text rest hbody
    have hlocate : ∀ position, Tells text position →
        d.locate (some position) = .behind (front ++ (header ++ '{' :: text)) := by
      intro position htells
      rw [locate_of_tells hbodyPlace htells]
      simp
    refine ⟨?_, hlocate, ?_⟩
    · rw [hstands.text, hbody]
      simp
    intro fault hfault
    rw [Declaration.parseDiagnostic, hfault, hlocate _ .column]

/-- A unit with a comment in front, and a fault in each of its two bodies. -/
def faultyUnit : String :=
  "// two faults\nclass Spin \x7b\n  let x = ;\n\x7d\nclass Top : Behaviour \x7b let y = ; \x7d\n"

/-- The first body of the unit, over several lines. -/
def faultySpin : Declaration := ⟨"Spin", none, "\n  let x = ;\n", ⟨2, 1⟩, ⟨2, 13⟩⟩

/-- The second one, on the line of its header. -/
def faultyTop : Declaration := ⟨"Top", some "Behaviour", " let y = ; ", ⟨5, 1⟩, ⟨5, 24⟩⟩

/-- Both faults are reported, each at its semicolon. -/
theorem faults_located_twice :
    scan faultyUnit = .ok [faultySpin, faultyTop] ∧
      (fresh.compile faultyUnit).2.diagnostics.errors =
        [.error ⟨3, 11⟩ "in 'Spin': Unexpected ';'", .error ⟨5, 33⟩ "in 'Top': Unexpected ';'"] ∧
      ∃ front header after, StandsIn faultyUnit [faultySpin] faultyTop front header after ∧
        faultyTop.locate (some (1, some 10)) = .behind (front ++ (header ++ "\x7b let y = ".toList)) := by
  have hscan : scan faultyUnit = .ok [faultySpin, faultyTop] := by decide +kernel
  obtain ⟨herrors, hlocated⟩ := faults_located fresh hscan
  obtain ⟨front, header, after, hstands, hplaces⟩ := hlocated [faultySpin] faultyTop [] rfl
  obtain ⟨-, hlocate, -⟩ := hplaces " let y = ".toList "; ".toList (by decide)
  exact ⟨hscan, herrors.trans (by decide +kernel), front, header, after, hstands, hlocate (1, some 10) .column⟩

end Compiler

end HotReload
