import HotReload.Proofs.Script.Exactness
import HotReload.Proofs.Unit.Grammar

/-! # Marking: a marker behind a source

    A source with a marker behind it scans exactly if the source does, and then to the
    declarations of the source and that of the marker.  The marker is declared on the
    line after the source, whatever the source ends in. -/

namespace HotReload.Scan

/-! ## Section 1 - trivia at the end of a text -/

/-- An item at the end of a text stands before a line end too. -/
theorem stands_line {i : Item} (h : i.Stands none) : i.Stands (some '\n') := by
  cases i with
  | char c => exact ⟨h.1, h.2.1, h.2.2.1, fun _ => ⟨by decide, by decide⟩⟩
  | string quote text => exact h
  | literal escaped c closed => exact ⟨h.1, fun _ => by decide⟩
  | lineComment text => exact ⟨h.1, .inr rfl⟩
  | blockComment text => exact h

theorem fits_line {items : List Item} (h : Fits items none) : Fits items (some '\n') := by
  induction items with
  | nil => trivial
  | cons i items ih =>
    obtain ⟨hi, hitems⟩ := h
    refine ⟨?_, ih hitems⟩
    rcases hnext : (spell items).head? with _ | c
    · rw [hnext] at hi
      exact stands_line hi
    · rw [hnext] at hi
      exact hi

/-- A line end behind trivia at the end of a text belongs to them. -/
theorem isTrivia_line {gap : List Char} (h : IsTrivia gap none) (next : Option Char) :
    IsTrivia (gap ++ ['\n']) next := by
  obtain ⟨items, rfl, hfits, htrivia⟩ := h
  have hline : Fits [.char '\n'] next := ⟨stands_of_isBlank (by decide) _, trivial⟩
  refine ⟨items ++ [.char '\n'], by simp [Item.text], (fits_append (b := [.char '\n'])).2 ⟨fits_line hfits, hline⟩, ?_⟩
  intro i hi
  rcases List.mem_append.1 hi with hi | hi
  · exact htrivia i hi
  · rw [List.mem_singleton.1 hi]
    decide

/-! ## Section 2 - the appended line -/

/-- The declaration of an empty class behind a text. -/
def emptyClassBehind (before : List Char) (name : String) : Declaration :=
  ⟨name, none, "", .behind before, .behind (before ++ ("class ".toList ++ (name.toList ++ " \x7b".toList)))⟩

theorem declared_emptyClass {name : String} (h : IsName name.toList) (before : List Char) :
    Declared before (emptyClass name.toList) [emptyClassBehind before name] := by
  have hbody : IsBody [] := ⟨[], rfl, trivial, rfl⟩
  have hgap : IsTrivia ['\n'] none := isTrivia_blank (by decide) _
  have hdeclared : Declared before _ _ := .more (isHeader_class h _) hbody hgap (.none _)
  show Declared before ("class ".toList ++ (name.toList ++ " {}\n".toList)) [emptyClassBehind before name]
  simpa [emptyClassBehind] using hdeclared

/-! ## Section 3 - a class behind a unit -/

/-- A line with an empty class adds its declaration behind declarations, with the trivia in front of them. -/
theorem declared_line {name : String} (hname : IsName name.toList) {before gap rest : List Char}
    {ds : List Declaration} (h : Declared (before ++ gap) rest ds) (hgap : IsTrivia gap rest.head?) :
    ∃ gap' rest', gap ++ (rest ++ '\n' :: emptyClass name.toList) = gap' ++ rest' ∧ IsTrivia gap' rest'.head? ∧
      Declared (before ++ gap') rest' (ds ++ [emptyClassBehind (before ++ (gap ++ (rest ++ ['\n']))) name]) := by
  generalize hfront : before ++ gap = front at h
  induction h generalizing before gap with
  | none front =>
    refine ⟨gap ++ ['\n'], emptyClass name.toList, by simp, isTrivia_line hgap _, ?_⟩
    exact declared_emptyClass hname _
  | @more front header body gap₁ rest₁ name₁ base others hheader hbody hgap₁ hothers ih =>
    subst hfront
    have hfront : before ++ gap ++ (header ++ '{' :: (body ++ ['}'])) ++ gap₁ =
        before ++ gap ++ (header ++ '{' :: (body ++ '}' :: gap₁)) := by simp
    obtain ⟨gap₂, rest₂, hrest, hgap₂, hdeclared⟩ := ih hgap₁ hfront
    refine ⟨gap, header ++ '{' :: (body ++ '}' :: (gap₂ ++ rest₂)), ?_, ?_, ?_⟩
    · rw [← hrest]
      simp
    · rw [List.head?_append] at hgap ⊢
      exact hgap
    · have hothers : Declared (before ++ gap ++ (header ++ '{' :: (body ++ '}' :: gap₂))) rest₂
          (others ++ [emptyClassBehind
            (before ++ (gap ++ (header ++ '{' :: (body ++ '}' :: (gap₁ ++ rest₁)) ++ ['\n']))) name]) := by
        simpa using hdeclared
      exact .more (isHeader_congr hheader) hbody hgap₂ hothers

end HotReload.Scan

namespace HotReload

open Scan

/-- The declaration of a marker that stands behind a source. -/
def markerBehind (source marker : String) : Declaration := emptyClassBehind (source.toList ++ ['\n']) marker

/-- A source with a marker behind it scans exactly if the source does, to its declarations and that of the marker. -/
theorem scan_marker_iff {marker : String} (hmarker : IsName marker.toList) (source : String)
    (ds' : List Declaration) :
    scan (source ++ markerDeclaration marker) = .ok ds' ↔
      ∃ ds, scan source = .ok ds ∧ ds' = ds ++ [markerBehind source marker] := by
  have hadds : ∀ ds, scan source = .ok ds →
      scan (source ++ markerDeclaration marker) = .ok (ds ++ [markerBehind source marker]) := by
    intro ds h
    have hunit : readUnit ⟨.behind [], source.toList⟩ = .ok ds := h
    obtain ⟨gap, rest, hsource, hgap, hdeclared⟩ := declared_of_readUnit hunit
    obtain ⟨gap', rest', htext, hgap', hdeclared'⟩ := declared_line hmarker hdeclared hgap
    have htoList : (source ++ markerDeclaration marker).toList = gap' ++ rest' := by
      rw [String.toList_append, toList_markerDeclaration, hsource, ← htext, List.append_assoc]
    rw [scan, Cursor.ofText, htoList, markerBehind, hsource, Place.start_eq_behind]
    simpa using readUnit_of_declared hdeclared' hgap'
  constructor
  · intro h
    rcases hsource : scan source with fault | ds
    -- What is wrong with a source is still wrong with a class behind it.
    · obtain ⟨fault', hfault⟩ := (scan_append source hmarker (toList_markerDeclaration marker)).2 fault hsource
      rw [h] at hfault
      cases hfault
    · refine ⟨ds, rfl, ?_⟩
      rw [hadds ds hsource] at h
      exact (Except.ok.inj h).symm
  · rintro ⟨ds, h, rfl⟩
    exact hadds ds h

/-- A comment at the end of a source does not swallow the marker, and the marker does not close a string. -/
theorem scan_marker_of_comment : IsName (markerName 1).toList ∧
    scan ("class Spin {} // note" ++ markerDeclaration (markerName 1)) =
      .ok [⟨"Spin", none, "", ⟨1, 1⟩, ⟨1, 13⟩⟩, ⟨"ReloadMarker_1", none, "", ⟨2, 1⟩, ⟨2, 23⟩⟩] ∧
    ∀ ds, scan ("class Spin \x7b \"" ++ markerDeclaration (markerName 1)) ≠ .ok ds := by
  refine ⟨isName_marker 1, ?_, ?_⟩
  · refine (scan_marker_iff (isName_marker 1) _ _).2 ⟨[⟨"Spin", none, "", ⟨1, 1⟩, ⟨1, 13⟩⟩], ?_, ?_⟩
    · decide +kernel
    · decide +kernel
  · intro ds h
    obtain ⟨ds', hsource, -⟩ := (scan_marker_iff (isName_marker 1) _ ds).1 h
    have hopen : scan "class Spin \x7b \"" = .error (.openString ⟨1, 14⟩) := by decide +kernel
    rw [hopen] at hsource
    cases hsource

end HotReload
