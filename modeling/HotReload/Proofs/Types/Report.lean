import HotReload.Proofs.Types.Verdict

/-! # Reports: what a compile says, and how little of it comes from the past

    A compile is asked about a unit by a compiler with a past.  The past decides two
    things only: the number of the assembly that is emitted, and for which declarations
    the report has a warning that their names stood for types before.

    So a report is cut in two here.  Its *redefinitions* are these warnings.  All
    that is left, every error among it, is told from the text of the unit.  The cut
    is made by the diagnostics alone, not by what is known about the unit: a
    redefinition is told by the words it ends in. -/

namespace HotReload

/-! ## Section 1 - cutting a report in two -/

/-- The words that a warning about a redefinition ends in. -/
def redefinitionWords : String := "' redefines a type from an earlier compilation"

/-- Whether a diagnostic is the warning about a redefinition. -/
def Diagnostic.isRedefinition (d : Diagnostic) : Bool :=
  d.isWarning && decide (redefinitionWords.toList <:+ d.text.toList)

theorem Diagnostic.isRedefinition_of_isError {d : Diagnostic} (h : d.isError = true) :
    d.isRedefinition = false := by
  have hwarning : d.isWarning = false := by rw [d.isWarning_eq_not_isError, h]; rfl
  unfold isRedefinition
  rw [hwarning, Bool.false_and]

namespace Report

/-- The warnings about redefinitions in a report, in order. -/
def redefinitions (r : Report) : Report := r.filter Diagnostic.isRedefinition

/-- Everything else in a report, in order. -/
def rest (r : Report) : Report := r.filter fun d => !d.isRedefinition

theorem redefinitions_append (r r' : Report) :
    redefinitions (r ++ r') = redefinitions r ++ redefinitions r' :=
  List.filter_append r r'

theorem rest_append (r r' : Report) : rest (r ++ r') = rest r ++ rest r' :=
  List.filter_append r r'

/-- No error is among the redefinitions, so all of them are in the rest. -/
theorem errors_rest (r : Report) : errors (rest r) = errors r := by
  unfold errors rest
  rw [List.filter_filter]
  apply List.filter_congr
  intro d _
  by_cases h : d.isError = true
  · rw [Diagnostic.isRedefinition_of_isError h, h]
    rfl
  · rw [Bool.not_eq_true] at h
    rw [h, Bool.false_and]

/-- A report that has no redefinitions is its own rest. -/
theorem rest_of_redefinitions {r : Report} (h : ∀ d ∈ r, d.isRedefinition = false) :
    rest r = r ∧ redefinitions r = [] := by
  refine ⟨List.filter_eq_self.2 ?_, List.filter_eq_nil_iff.2 ?_⟩
  · intro d hd
    rw [h d hd]
    rfl
  · intro d hd
    rw [h d hd]
    exact Bool.false_ne_true

/-- A report of redefinitions alone has no rest. -/
theorem redefinitions_of_all {r : Report} (h : ∀ d ∈ r, d.isRedefinition = true) :
    redefinitions r = r ∧ rest r = [] := by
  refine ⟨List.filter_eq_self.2 h, List.filter_eq_nil_iff.2 ?_⟩
  intro d hd
  rw [h d hd]
  exact Bool.false_ne_true

end Report

namespace Compiler

/-! ## Section 2 - one declaration -/

/-- The warning that the name of a declaration stood for a type before. -/
def redefinition (d : Declaration) : Diagnostic :=
  .warning d.place s!"'{d.name}' redefines a type from an earlier compilation"

theorem redefinitionWarnings_eq (c : Compiler) (d : Declaration) :
    c.redefinitionWarnings d = if (c.lookup d.name).isSome then [redefinition d] else [] := rfl

theorem isRedefinition_redefinition (d : Declaration) : (redefinition d).isRedefinition = true := by
  have htext : (redefinition d).text.toList = ("'" ++ d.name).toList ++ redefinitionWords.toList := by
    rw [← String.toList_append]
    rfl
  have hends : redefinitionWords.toList <:+ (redefinition d).text.toList := ⟨_, htext.symm⟩
  exact decide_eq_true hends

/-- The warning about a base ends in a quotation mark, and so not in the words of a redefinition. -/
theorem isRedefinition_baseWarnings {d : Declaration} {x : Diagnostic} (h : x ∈ baseWarnings d) :
    x.isRedefinition = false := by
  unfold baseWarnings at h
  split at h
  · next base _ =>
    split at h
    · cases h
    · rw [List.mem_singleton] at h
      subst h
      refine decide_eq_false ?_
      rintro ⟨front, hfront⟩
      have htext : (s!"'{d.name}' derives from unknown base type '{base}'" : String).toList =
          (s!"'{d.name}' derives from unknown base type '{base}" : String).toList ++ ['\''] := by
        show ("'" ++ d.name ++ "' derives from unknown base type '" ++ base ++ "'" : String).toList = _
        rw [String.toList_append]
        rfl
      have hlast := congrArg List.getLast? (hfront.trans htext)
      rw [List.getLast?_append, List.getLast?_append] at hlast
      have hn : redefinitionWords.toList.getLast? = some 'n' := by decide
      rw [hn] at hlast
      simp at hlast
  · cases h

/-- The error of a body that does not parse, if it does not. -/
def bodyErrors (d : Declaration) : Report :=
  match Body.Program.parse d.body with
  | .ok _ => []
  | .error fault => [d.parseDiagnostic fault]

/-- What there is to say about a declaration, in its order. -/
theorem compileDeclaration_report (c : Compiler) (d : Declaration) :
    (c.compileDeclaration d).1 = baseWarnings d ++ c.redefinitionWarnings d ++ bodyErrors d := by
  unfold compileDeclaration bodyErrors
  cases Body.Program.parse d.body with
  | ok program => exact (List.append_nil _).symm
  | error fault => rfl

theorem isRedefinition_bodyErrors {d : Declaration} {x : Diagnostic} (h : x ∈ bodyErrors d) :
    x.isRedefinition = false := by
  unfold bodyErrors at h
  split at h
  · cases h
  · rw [List.mem_singleton] at h
    subst h
    exact Diagnostic.isRedefinition_of_isError rfl

/-- The past of a compiler shows in the redefinition of a declaration, and in nothing else it has to
    say about it. -/
theorem cut_compileDeclaration (c : Compiler) (d : Declaration) :
    (c.compileDeclaration d).1.redefinitions = c.redefinitionWarnings d ∧
      (c.compileDeclaration d).1.rest = baseWarnings d ++ bodyErrors d := by
  have hbase := Report.rest_of_redefinitions (r := baseWarnings d) fun x => isRedefinition_baseWarnings
  have hbody := Report.rest_of_redefinitions (r := bodyErrors d) fun x => isRedefinition_bodyErrors
  have hwarnings : ∀ x ∈ c.redefinitionWarnings d, x.isRedefinition = true := by
    intro x hx
    rw [redefinitionWarnings_eq] at hx
    split at hx
    · rw [List.mem_singleton.1 hx]
      exact isRedefinition_redefinition d
    · cases hx
  have hredefinition := Report.redefinitions_of_all hwarnings
  rw [compileDeclaration_report]
  constructor
  · rw [Report.redefinitions_append, Report.redefinitions_append, hbase.2, hbody.2, hredefinition.1,
      List.nil_append, List.append_nil]
  · rw [Report.rest_append, Report.rest_append, hbase.1, hbody.1, hredefinition.2, List.append_nil]

/-! ## Section 3 - all declarations of a unit -/

/-- The declarations that repeat no name, neither one of their unit nor one that came before. -/
def firsts (seen : List String) : List Declaration → List Declaration
  | [] => []
  | d :: ds => if d.name ∈ seen then firsts seen ds else d :: firsts (d.name :: seen) ds

theorem compileAll_cons (c : Compiler) (seen : List String) (d : Declaration) (ds : List Declaration) :
    (c.compileAll seen (d :: ds)).1 =
      if d.name ∈ seen then repetition d :: (c.compileAll seen ds).1
      else (c.compileDeclaration d).1 ++ (c.compileAll (d.name :: seen) ds).1 := by
  rw [compileAll]
  by_cases h : d.name ∈ seen
  · rw [if_pos h, if_pos h]
  · rw [if_neg h, if_neg h]

/-- One redefinition for each declaration that repeats no name and whose name stands for a type. -/
theorem redefinitions_compileAll (c : Compiler) (seen : List String) (ds : List Declaration) :
    (c.compileAll seen ds).1.redefinitions =
      ((firsts seen ds).filter fun d => (c.lookup d.name).isSome).map redefinition := by
  induction ds generalizing seen with
  | nil => rfl
  | cons d ds ih =>
    rw [compileAll_cons, firsts]
    by_cases h : d.name ∈ seen
    · rw [if_pos h, if_pos h, ← ih seen]
      have herror : (repetition d).isRedefinition = false := Diagnostic.isRedefinition_of_isError rfl
      exact List.filter_cons_of_neg (by rw [herror]; exact Bool.false_ne_true)
    · rw [if_neg h, if_neg h, Report.redefinitions_append, (c.cut_compileDeclaration d).1, ih,
        redefinitionWarnings_eq]
      let known : Declaration → Bool := fun d => (c.lookup d.name).isSome
      by_cases hknown : known d = true
      · rw [if_pos hknown, List.filter_cons_of_pos (p := known) hknown]
        rfl
      · rw [if_neg hknown, List.filter_cons_of_neg (p := known) hknown]
        rfl

/-- The rest of the report is the same for every compiler. -/
theorem rest_compileAll (c c' : Compiler) (seen : List String) (ds : List Declaration) :
    (c.compileAll seen ds).1.rest = (c'.compileAll seen ds).1.rest := by
  induction ds generalizing seen with
  | nil => rfl
  | cons d ds ih =>
    rw [compileAll_cons, compileAll_cons]
    by_cases h : d.name ∈ seen
    · rw [if_pos h, if_pos h]
      have hcons : ∀ r : Report, Report.rest (repetition d :: r) = Report.rest [repetition d] ++ Report.rest r :=
        fun r => Report.rest_append [repetition d] r
      rw [hcons (c.compileAll seen ds).1, hcons (c'.compileAll seen ds).1, ih]
    · rw [if_neg h, if_neg h, Report.rest_append, Report.rest_append, (c.cut_compileDeclaration d).2,
        (c'.cut_compileDeclaration d).2, ih]

/-! ## Section 4 - units -/

/-- What a compile of a unit comes to: everything about it that the text decides, and what the names
    that are known have to do with it. -/
structure Judges (c : Compiler) (unit : String) : Prop where
  success_iff : (c.compile unit).2.success = true ↔ Compiles unit
  /-- A compile fails by its errors and by nothing else. -/
  success_iff_errors : (c.compile unit).2.success = true ↔ (c.compile unit).2.diagnostics.errors = []
  /-- A text that is no unit is reported by its fault alone. -/
  fault : ∀ fault, scan unit = .error fault → (c.compile unit).2.diagnostics = [fault.diagnostic]
  /-- There is one redefinition for each declaration of a known name, unless it repeats an earlier one. -/
  redefinitions : ∀ ds, scan unit = .ok ds → (c.compile unit).2.diagnostics.redefinitions =
    ((firsts [] ds).filter fun d => (c.lookup d.name).isSome).map redefinition
  /-- A success adds one assembly, which holds the types of the declarations in order after its wrapper. -/
  emits : (c.compile unit).2.success = true → ∃ ds types, scan unit = .ok ds ∧
    List.Forall₂ (CompilesTo c.nextAssembly) ds types ∧
    (c.compile unit).1.assemblies =
      c.assemblies ++ [⟨c.nextAssembly, .wrapper c.nextAssembly :: types⟩] ∧
    (c.compile unit).1.modules = c.modules
  /-- A failure changes nothing at all. -/
  keeps : (c.compile unit).2.success = false → (c.compile unit).1 = c

theorem compile_of_fault {c : Compiler} {unit : String} {fault : ScanFault} (h : scan unit = .error fault) :
    c.compile unit = (c, ⟨false, [fault.diagnostic]⟩) := by
  unfold compile
  rw [h]

theorem diagnostics_of_scan {c : Compiler} {unit : String} {ds : List Declaration} (h : scan unit = .ok ds) :
    (c.compile unit).2 = ⟨!(c.compileAll [] ds).1.hasErrors, (c.compileAll [] ds).1⟩ := by
  unfold compile
  rw [h]
  dsimp only
  by_cases herrors : (c.compileAll [] ds).1.hasErrors = true
  · rw [if_pos herrors, herrors]
    rfl
  · rw [if_neg herrors]
    rw [Bool.not_eq_true] at herrors
    rw [herrors]
    rfl

theorem judges (c : Compiler) (unit : String) : c.Judges unit := by
  constructor
  · constructor
    · intro hsuccess
      by_contra hnot
      obtain ⟨report, hcompile⟩ := compile_of_not_compiles (c := c) hnot
      rw [hcompile] at hsuccess
      cases hsuccess
    · rintro ⟨ds, hscan, hwell⟩
      obtain ⟨report, types, hcompile, -⟩ := compile_of_wellFormed (c := c) hscan hwell
      rw [hcompile]
  · cases hscan : scan unit with
    | error fault =>
      rw [compile_of_fault hscan]
      rw [← Report.hasErrors_eq_false_iff]
      have herror : Report.hasErrors [fault.diagnostic] = true := by
        cases fault <;> rfl
      rw [herror]
      constructor
      · intro h
        exact absurd h Bool.false_ne_true
      · intro h
        exact absurd h.symm Bool.false_ne_true
    | ok ds =>
      rw [diagnostics_of_scan hscan, ← Report.hasErrors_eq_false_iff]
      exact Bool.not_eq_true' _ ▸ Iff.rfl
  · intro fault hscan
    rw [compile_of_fault hscan]
  · intro ds hscan
    rw [diagnostics_of_scan hscan]
    exact redefinitions_compileAll c [] ds
  · intro hsuccess
    rcases c.compile_cases unit with ⟨report, hcompile⟩ | ⟨ds, types, report, hscan, -, hcompile, htypes⟩
    · rw [hcompile] at hsuccess
      cases hsuccess
    · refine ⟨ds, types, hscan, htypes, ?_, ?_⟩
      · rw [hcompile]
        rfl
      · rw [hcompile]
        rfl
  · intro hfailure
    rcases c.compile_cases unit with ⟨report, hcompile⟩ | ⟨ds, types, report, -, -, hcompile, -⟩
    · rw [hcompile]
    · rw [hcompile] at hfailure
      cases hfailure

/-- Two compilers report the same about a unit, but for redefinitions. -/
theorem rest_compile (c c' : Compiler) (unit : String) :
    (c.compile unit).2.diagnostics.rest = (c'.compile unit).2.diagnostics.rest := by
  cases hscan : scan unit with
  | error fault => rw [compile_of_fault hscan, compile_of_fault hscan]
  | ok ds =>
    rw [diagnostics_of_scan hscan, diagnostics_of_scan hscan]
    exact rest_compileAll c c' [] ds

/-- Whatever two compilers have compiled before, a unit compiles in both or in neither; the text
    decides which, and every error of the reports.  The reports differ at most in their redefinitions,
    and each of these is about a name that is known. -/
theorem verdict_independent_of_history (c c' : Compiler) (unit : String) :
    (c.compile unit).2.success = (c'.compile unit).2.success ∧
      (c.compile unit).2.diagnostics.errors = (c'.compile unit).2.diagnostics.errors ∧
      (c.compile unit).2.diagnostics.rest = (c'.compile unit).2.diagnostics.rest ∧
      c.Judges unit ∧ c'.Judges unit := by
  have hrest := rest_compile c c' unit
  have hsame : (c.compile unit).2.success = true ↔ (c'.compile unit).2.success = true := by
    rw [(c.judges unit).success_iff, (c'.judges unit).success_iff]
  refine ⟨Bool.eq_iff_iff.2 hsame, ?_, hrest, c.judges unit, c'.judges unit⟩
  rw [← Report.errors_rest, hrest, Report.errors_rest]

end Compiler

end HotReload
