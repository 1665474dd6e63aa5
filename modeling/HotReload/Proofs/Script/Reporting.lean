import HotReload.Proofs.Body.Faults
import HotReload.Proofs.Script.Marking
import HotReload.Proofs.Types.Location
import HotReload.Proofs.Unit.Cutoff

/-! # Reporting: what an extraction says about a source

    A source is compiled together with its marker, so the report of an extraction speaks of
    a longer text than the one that the author of a script has written.  Most of the time
    nobody can tell: the report is that of the source alone, and the marker shows in
    nothing.

    It shows in two cases.  If the source breaks off where a word or a brace is due, the
    marker is read for it, and the fault is reported below the last line of the source.  And
    if the compiler knows a type of the name of the marker, there is one more warning. -/

namespace HotReload

open Scan

/-! ## Section 1 - two reports -/

/-- The report of a use of the compiler, in its success or in its compile error. -/
def reportIn {α : Type} (diagnostics : α → Report) : Except ScriptError α → Option Report
  | .ok a => some (diagnostics a)
  | .error error => error.report?

namespace Context

/-- The report of a compile of a text as it stands. -/
def compileReport (c : Context) (unit : String) : Option Report := reportIn id (c.compile unit).value

/-- The report of an extraction from a source. -/
def extractReport (c : Context) (source : String) : Option Report :=
  reportIn Extracted.diagnostics (c.extract source).value

theorem compileReport_eq (c : Context) (unit : String) :
    c.compileReport unit = some (c.bootstrap.1.compiler.compile unit).2.diagnostics := by
  unfold compileReport compile
  dsimp only
  split <;> rfl

/-- The lookup of a marker fails as such, and as no compile. -/
theorem report?_resolved {marker : String} {found : Except String Body.Value} {error : ScriptError}
    (h : resolved marker found = .error error) : error.report? = none := by
  unfold resolved at h
  split at h
  · cases h
  · cases h
    rfl
  · cases h
    rfl

theorem report?_pick {assembly : Assembly} {marker : String} {error : ScriptError}
    (h : pick assembly marker = .error error) : error.report? = none := by
  rcases error_of_pick h with rfl | ⟨names, rfl⟩ <;> rfl

/-- What the compiler says about a source with its marker. -/
def markedVerdict (c : Context) (source : String) : CompileReport := (c.bootstrap.1.compiler.compile (c.marked source)).2

/-- An extraction fails to compile with the report of the source and its marker, or it succeeds with this report, or
    it fails for another reason than a compile. -/
theorem value_extract_cases (c : Context) (source : String) :
    ((c.markedVerdict source).success = false ∧
      (c.extract source).value = .error (.compile (c.markedVerdict source).diagnostics)) ∨
    ((c.markedVerdict source).success = true ∧
      ((∃ found, (c.extract source).value = .ok found ∧ found.diagnostics = (c.markedVerdict source).diagnostics) ∨
        ∃ error, (c.extract source).value = .error error ∧ error.report? = none)) := by
  unfold markedVerdict
  rcases hk : c.bootstrap.1.compiler.compile (c.marked source) with ⟨k, _ | _, report⟩
  · exact .inl ⟨rfl, value_extract_of_failed hk⟩
  · refine .inr ⟨rfl, ?_⟩
    have hcompile := c.compile_marked source hk
    unfold marked at hcompile
    unfold extract
    dsimp only
    rw [hcompile]
    dsimp only [if_true]
    rcases hfound : resolved (markerName c.nextMarker)
        ((c.compiled k).evaluate (markerLookup (markerName c.nextMarker))).value with error | ref
    · exact .inr ⟨error, rfl, report?_resolved hfound⟩
    · rcases hpick : pick ref.assembly (markerName c.nextMarker) with error | behaviour
      · refine .inr ⟨error, ?_, report?_pick hpick⟩
        show (pick ref.assembly _ >>= fun _ => _) = _
        rw [hpick]
        rfl
      · refine .inl ⟨⟨behaviour, markerName c.nextMarker, report⟩, ?_, rfl⟩
        show (pick ref.assembly _ >>= fun _ => _) = _
        rw [hpick]
        rfl

/-- The report of an extraction, if it has one, is that of the source with its marker. -/
theorem extractReport_eq {c : Context} {source : String} {report : Report}
    (h : c.extractReport source = some report) : report = (c.markedVerdict source).diagnostics := by
  unfold extractReport at h
  rcases c.value_extract_cases source with ⟨-, hvalue⟩ | ⟨-, ⟨found, hvalue, hfound⟩ | ⟨error, hvalue, hnone⟩⟩
  · rw [hvalue] at h
    exact (Option.some.inj h).symm
  · rw [hvalue] at h
    exact (Option.some.inj h).symm.trans hfound
  · rw [hvalue] at h
    exact absurd (hnone.symm.trans h) (by simp)

theorem fails_to_compile_iff (c : Context) (source : String) :
    (∃ report, (c.extract source).value = .error (.compile report)) ↔ (c.markedVerdict source).success = false := by
  rcases c.value_extract_cases source with ⟨hfails, hvalue⟩ | ⟨hsucceeds, ⟨found, hvalue, -⟩ | ⟨error, hvalue, hnone⟩⟩
  · exact ⟨fun _ => hfails, fun _ => ⟨_, hvalue⟩⟩
  · rw [hvalue, hsucceeds]
    simp
  · rw [hvalue, hsucceeds]
    simp only [Except.error.injEq, Bool.true_eq_false, iff_false, not_exists]
    rintro report rfl
    cases hnone

end Context

/-! ## Section 2 - the marker in a report -/

namespace Compiler

/-- A declaration behind others, of a name that none of them has, is reported behind them. -/
theorem compileAll_snoc (c : Compiler) (seen : List String) {ds : List Declaration} {d : Declaration}
    (hseen : d.name ∉ seen) (hds : d.name ∉ ds.map Declaration.name) :
    (c.compileAll seen (ds ++ [d])).1 = (c.compileAll seen ds).1 ++ (c.compileDeclaration d).1 := by
  induction ds generalizing seen with
  | nil =>
    rw [List.nil_append, compileAll_cons, if_neg hseen]
    simp [compileAll]
  | cons x ds ih =>
    simp only [List.map_cons, List.mem_cons, not_or] at hds
    rw [List.cons_append, compileAll_cons, compileAll_cons]
    by_cases hx : x.name ∈ seen
    · rw [if_pos hx, if_pos hx, ih seen hseen hds.2, List.cons_append]
    · have hseen' : d.name ∉ x.name :: seen := by simp [hds.1, hseen]
      rw [if_neg hx, if_neg hx, ih (x.name :: seen) hseen' hds.2, List.append_assoc]

/-- About a marker there is nothing to say, but that its name may be known. -/
theorem compileDeclaration_marker (c : Compiler) (source marker : String) :
    (c.compileDeclaration (markerBehind source marker)).1 = c.redefinitionWarnings (markerBehind source marker) := by
  have hbody : bodyErrors (markerBehind source marker) = [] := by
    unfold bodyErrors
    rw [show (markerBehind source marker).body = "" from rfl, parse_empty]
  rw [compileDeclaration_report, hbody, List.append_nil]
  rfl

/-- To the report on a unit a marker adds nothing, but that its name may be known. -/
theorem diagnostics_marked_of_scan (c : Compiler) {source marker : String} (hmarker : IsName marker.toList)
    {ds : List Declaration} (hscan : scan source = .ok ds) (hfresh : marker ∉ ds.map Declaration.name) :
    (c.compile (source ++ markerDeclaration marker)).2.diagnostics =
      (c.compile source).2.diagnostics ++ c.redefinitionWarnings (markerBehind source marker) := by
  have hmarked := (scan_marker_iff hmarker source _).2 ⟨ds, hscan, rfl⟩
  rw [diagnostics_of_scan hmarked, diagnostics_of_scan hscan, ← compileDeclaration_marker]
  exact c.compileAll_snoc [] (by simp) hfresh

/-- A text that is no unit is reported by its fault, or by what becomes of it in front of a marker. -/
theorem diagnostics_marked_of_fault (c : Compiler) {source marker : String} (hmarker : IsName marker.toList)
    {fault : ScanFault} (hscan : scan source = .error fault) :
    (c.compile (source ++ markerDeclaration marker)).2.diagnostics =
      [(fault.readOn (.behind source.toList)).diagnostic] := by
  rw [compile_of_fault (scan_line_error hmarker (toList_markerDeclaration marker) hscan)]

end Compiler

/-! ## Section 3 - the places of a report -/

/-- Whether all bodies of a source are ruled: behind a backquote none of them has a carriage return alone. -/
def RuledBodies (source : String) : Prop :=
  ∀ ds, scan source = .ok ds → ∀ d ∈ ds, Body.Lexer.Ruled d.body.toList

namespace Compiler

/-- Everything that is said about a declaration is said at its keyword or at the fault of its body. -/
theorem place_of_compileAll {c : Compiler} {seen : List String} {ds : List Declaration} {x : Diagnostic}
    (h : x ∈ (c.compileAll seen ds).1) : ∃ d ∈ ds, x.place = d.place ∨ x ∈ bodyErrors d := by
  induction ds generalizing seen with
  | nil => simp [compileAll] at h
  | cons d ds ih =>
    rw [compileAll_cons] at h
    have hlater : ∀ {seen}, x ∈ (c.compileAll seen ds).1 → ∃ d' ∈ d :: ds, x.place = d'.place ∨ x ∈ bodyErrors d' := by
      intro seen hx
      obtain ⟨d', hd', hplace⟩ := ih hx
      exact ⟨d', List.mem_cons_of_mem d hd', hplace⟩
    by_cases hd : d.name ∈ seen
    · rw [if_pos hd] at h
      rcases List.mem_cons.1 h with rfl | hx
      · exact ⟨d, List.mem_cons_self, .inl rfl⟩
      · exact hlater hx
    · rw [if_neg hd] at h
      rcases List.mem_append.1 h with hx | hx
      · refine ⟨d, List.mem_cons_self, ?_⟩
        rw [compileDeclaration_report, List.append_assoc] at hx
        rcases List.mem_append.1 hx with hx | hx
        · unfold baseWarnings at hx
          split at hx
          · split at hx
            · cases hx
            · exact .inl (by rw [List.mem_singleton.1 hx]; rfl)
          · cases hx
        · rcases List.mem_append.1 hx with hx | hx
          · rw [redefinitionWarnings_eq] at hx
            split at hx
            · exact .inl (by rw [List.mem_singleton.1 hx]; rfl)
            · cases hx
          · exact .inr hx
      · exact hlater hx

/-- What is said about a source is said at one of its places. -/
theorem places_compile (c : Compiler) {source : String} (hruled : RuledBodies source) :
    ∀ x ∈ (c.compile source).2.diagnostics, x.place.IsOf source.toList := by
  intro x hx
  rcases hscan : scan source with fault | ds
  · rw [compile_of_fault hscan] at hx
    rw [List.mem_singleton.1 hx]
    exact place_of_scan_fault hscan
  · rw [diagnostics_of_scan hscan] at hx
    obtain ⟨d, hd, hplace⟩ := place_of_compileAll hx
    obtain ⟨earlier, later, rfl⟩ := List.append_of_mem hd
    obtain ⟨front, header, after, hstands, hkeyword, hbodyPlace⟩ := standsIn_of_scan hscan
    rcases hplace with hplace | hx
    · exact ⟨front, ⟨_, hstands.text.symm⟩, hplace.trans hkeyword⟩
    · unfold bodyErrors at hx
      split at hx
      · cases hx
      · rename_i fault hfault
        obtain ⟨text, ⟨rest, hrest⟩, hplace⟩ := Body.Program.parse_fault_isOf (hruled _ hscan d hd) hfault
        refine ⟨front ++ (header ++ ['{']) ++ text, ⟨rest ++ '}' :: after, ?_⟩, ?_⟩
        · rw [hstands.text, ← hrest]
          simp
        · rw [List.mem_singleton.1 hx, Declaration.parseDiagnostic, hplace]
          exact locate_of_tells hbodyPlace .column

end Compiler

/-! ## Section 4 - when the marker shows -/

/-- Whether the marker of an extraction does not show in its report: the source does not break off, and, if it is
    a unit, no type is known by the name of the marker. -/
def Context.Undisturbed (c : Context) (source : String) : Prop :=
  match scan source with
  | .error fault => ¬ fault.AtEnd (.behind source.toList)
  | .ok _ => c.compiler.lookup (markerName c.nextMarker) = none

namespace Context

theorem undisturbed_of_fault {c : Context} {source : String} {fault : ScanFault} (h : scan source = .error fault) :
    c.Undisturbed source ↔ ¬ fault.AtEnd (.behind source.toList) := by
  unfold Undisturbed
  rw [h]

theorem undisturbed_of_scan {c : Context} {source : String} {ds : List Declaration} (h : scan source = .ok ds) :
    c.Undisturbed source ↔ c.compiler.lookup (markerName c.nextMarker) = none := by
  unfold Undisturbed
  rw [h]

/-- The first use of a compiler makes no name known. -/
theorem lookup_bootstrap (c : Context) (name : String) :
    c.bootstrap.1.compiler.lookup name = c.compiler.lookup name := by
  rw [Compiler.lookup, Compiler.lookup, c.bootstrap_keeps.2]

/-- What an extraction says about a source, measured by what a compile of the source alone says. -/
structure Reports (c : Context) (source : String) : Prop where
  /-- An extraction fails to compile exactly if the source does. -/
  fails : (∃ report, (c.extract source).value = .error (.compile report)) ↔ ¬ Compiler.Compiles source
  /-- Its report is that of the source alone exactly if the marker does not show. -/
  own_iff : ∀ report, c.extractReport source = some report →
    (c.compileReport source = some report ↔ c.Undisturbed source)
  /-- Then all of it is said at places of the source, if its bodies are ruled. -/
  inside : ∀ report, c.extractReport source = some report → c.Undisturbed source → RuledBodies source →
    ∀ d ∈ report, d.place.IsOf source.toList
  /-- A text that is no unit is reported by its fault alone; one that breaks off, below its last line. -/
  fault : ∀ fault, scan source = .error fault →
    c.extractReport source = some [(fault.readOn (.behind source.toList)).diagnostic]
  /-- To the report on a unit there is added at most a warning about the marker. -/
  unit : ∀ ds report, scan source = .ok ds → c.extractReport source = some report →
    ∃ own, c.compileReport source = some own ∧
      report = own ++ c.compiler.redefinitionWarnings (markerBehind source (markerName c.nextMarker))

/-- A fault that breaks off is not reported as it is. -/
theorem diagnostic_readOn_iff {stop : Place} {fault : ScanFault} :
    (fault.readOn stop).diagnostic = fault.diagnostic ↔ ¬ fault.AtEnd stop := by
  constructor
  · intro hsame hend
    obtain ⟨p, name, hreadOn, hline⟩ := ScanFault.readOn_of_atEnd hend
    rw [hreadOn] at hsame
    have hplace : fault.diagnostic.place = stop := by
      cases fault with
      | missingName q => exact hend
      | missingBase q n => exact hend
      | missingBody q n => exact hend
      | _ => exact hend.elim
    have hbelow : p = stop := (congrArg Diagnostic.place hsame).trans hplace
    rw [hbelow] at hline
    exact Nat.lt_irrefl _ hline
  · intro hend
    rw [ScanFault.readOn_of_not_atEnd hend]

/-- A text that is no unit is reported by its fault alone, or by what becomes of it in front of a marker. -/
theorem extractReport_of_fault (c : Context) {source : String} {fault : ScanFault} (h : scan source = .error fault) :
    c.extractReport source = some [(fault.readOn (.behind source.toList)).diagnostic] := by
  have hname : IsName (markerName c.nextMarker).toList := isName_marker c.nextMarker
  have hscan := scan_line_error hname (toList_markerDeclaration (markerName c.nextMarker)) h
  have hverdict : c.bootstrap.1.compiler.compile (c.marked source) =
      (c.bootstrap.1.compiler, ⟨false, [(fault.readOn (.behind source.toList)).diagnostic]⟩) :=
    Compiler.compile_of_fault hscan
  rw [extractReport, value_extract_of_failed hverdict]
  rfl

/-- An extraction from a source that does not declare the marker reports on this source alone, exactly if the source
    does not break off and the marker is not known. -/
theorem extract_reports (c : Context) {source : String}
    (hmarker : ∀ ds, scan source = .ok ds → markerName c.nextMarker ∉ ds.map Declaration.name) : c.Reports source := by
  have hname : IsName (markerName c.nextMarker).toList := isName_marker c.nextMarker
  have hwarnings : ∀ d, c.bootstrap.1.compiler.redefinitionWarnings d = c.compiler.redefinitionWarnings d := by
    intro d
    rw [Compiler.redefinitionWarnings_eq, Compiler.redefinitionWarnings_eq, lookup_bootstrap]
  have hfault : ∀ {fault}, scan source = .error fault → (c.markedVerdict source).diagnostics =
      [(fault.readOn (.behind source.toList)).diagnostic] := fun h =>
    Compiler.diagnostics_marked_of_fault _ hname h
  have hunit : ∀ {ds}, scan source = .ok ds → (c.markedVerdict source).diagnostics =
      (c.bootstrap.1.compiler.compile source).2.diagnostics ++
        c.compiler.redefinitionWarnings (markerBehind source (markerName c.nextMarker)) := by
    intro ds h
    rw [← hwarnings]
    exact Compiler.diagnostics_marked_of_scan _ hname h (hmarker ds h)
  have hown : ∀ report, c.extractReport source = some report →
      (c.compileReport source = some report ↔ c.Undisturbed source) := by
    intro report hreport
    rw [extractReport_eq hreport, compileReport_eq, Option.some.injEq]
    rcases hscan : scan source with fault | ds
    · rw [undisturbed_of_fault hscan, hfault hscan, Compiler.compile_of_fault hscan, List.singleton_inj,
        eq_comm, diagnostic_readOn_iff]
    · rw [undisturbed_of_scan hscan, hunit hscan, List.self_eq_append_right, Compiler.redefinitionWarnings_eq]
      simp [markerBehind, emptyClassBehind]
  have hreadable : Compiler.Compiles source ↔ Compiler.Compiles (c.marked source) := by
    rw [marked, ← not_iff_not, ← rejects_iff hname, ← not_iff_not, not_not, not_rejects_iff]
    constructor
    · rintro ⟨ds, hscan, hwell⟩
      exact ⟨ds, hscan, hwell, hmarker ds hscan⟩
    · rintro ⟨ds, hscan, hwell, -⟩
      exact ⟨ds, hscan, hwell⟩
  constructor
  · rw [fails_to_compile_iff, hreadable, ← (Compiler.judges c.bootstrap.1.compiler _).success_iff, Bool.not_eq_true]
    rfl
  · exact hown
  · intro report hreport hundisturbed hruled d hd
    have hsame := (hown report hreport).2 hundisturbed
    rw [compileReport_eq] at hsame
    exact Compiler.places_compile c.bootstrap.1.compiler hruled d (Option.some.inj hsame ▸ hd)
  · exact fun fault hscan => c.extractReport_of_fault hscan
  · intro ds report hscan hreport
    exact ⟨_, c.compileReport_eq source, (extractReport_eq hreport).trans (hunit hscan)⟩

/-- A source that ends in the keyword: by itself it lacks a name at its end.  In front of a marker it lacks a brace on
    the next line, for a type named like the keyword. -/
theorem extract_reports_below_source :
    (Context.offering []).Reachable ∧ (∀ ds, scan "class" ≠ .ok ds) ∧
      (Context.offering []).compileReport "class" = some [.error ⟨1, 6⟩ "expected a type name after 'class'"] ∧
      (Context.offering []).extractReport "class" =
        some [.error ⟨2, 7⟩ "expected '\x7b' to open the body of 'class'"] := by
  have hscan : scan "class" = .error (.missingName ⟨1, 6⟩) := by decide +kernel
  refine ⟨.start .fresh [], ?_, ?_, ?_⟩
  · intro ds h
    rw [hscan] at h
    cases h
  · rw [compileReport_eq, Compiler.compile_of_fault hscan]
    rfl
  · have hend : Place.behind "class".toList = ⟨1, 6⟩ := by decide
    rw [extractReport_of_fault _ hscan, hend]
    rfl

/-- A string that stays open is reported where it begins, with a marker behind it and without. -/
theorem extract_reports_open_string :
    (∀ ds, scan "class Spin \x7b \"" = .ok ds → markerName 1 ∉ ds.map Declaration.name) ∧
      (Context.offering []).Undisturbed "class Spin \x7b \"" ∧
      (Context.offering []).extractReport "class Spin \x7b \"" =
        some [.error ⟨1, 14⟩ "unterminated string literal"] ∧
      (Context.offering []).compileReport "class Spin \x7b \"" =
        some [.error ⟨1, 14⟩ "unterminated string literal"] := by
  have hscan : scan "class Spin \x7b \"" = .error (.openString ⟨1, 14⟩) := by decide +kernel
  have hmarker : ∀ ds, scan "class Spin \x7b \"" = .ok ds → markerName 1 ∉ ds.map Declaration.name := by
    intro ds h
    rw [hscan] at h
    cases h
  have hreports := extract_reports (Context.offering []) hmarker
  have hundisturbed : (Context.offering []).Undisturbed "class Spin \x7b \"" := (undisturbed_of_fault hscan).2 id
  have hreport := hreports.fault _ hscan
  exact ⟨hmarker, hundisturbed, hreport, (hreports.own_iff _ hreport).2 hundisturbed⟩

end Context

end HotReload
