import HotReload.Proofs.Unit.Reading
import HotReload.Types.Compiler
import Mathlib.Data.List.Forall2

/-! # Verdict: which units compile, and to what

    A compile fails or it emits one assembly.  It fails exactly when the unit is not
    well formed: its text is no unit, it declares a name twice, or a body of it does not
    parse.  Warnings play no part in this, and neither does what has been compiled before.
    The assembly of a well-formed unit holds one type for each declaration, in order. -/

namespace HotReload

/-! ## Section 1 - well-formed declarations -/

/-- What the declarations of a unit have to satisfy. -/
structure WellFormed (ds : List Declaration) : Prop where
  names : (ds.map Declaration.name).Nodup
  bodies : ∀ d ∈ ds, ∃ program, Body.Program.parse d.body = .ok program

/-- The type that a declaration stands for in an assembly. -/
structure CompilesTo (assembly : Nat) (d : Declaration) (t : BehaviourType) : Prop where
  name : t.name = d.name
  base : t.base = d.base
  assembly : t.assembly = assembly
  program : Body.Program.parse d.body = .ok t.program

/-- A type of the wrapper's name cannot be declared. -/
theorem name_ne_wrapperName {source : String} {ds : List Declaration} (h : scan source = .ok ds) :
    ∀ d ∈ ds, d.name ≠ wrapperName := by
  intro d hd heq
  have hpart := (isName_of_scan h d hd).part
  rw [heq] at hpart
  exact absurd (hpart '<' (by decide +kernel)) (by decide)

theorem names_of_compilesTo {n : Nat} {ds : List Declaration} {types : List BehaviourType}
    (h : List.Forall₂ (CompilesTo n) ds types) :
    types.map BehaviourType.name = ds.map Declaration.name := by
  induction h with
  | nil => rfl
  | cons head _ ih => rw [List.map_cons, List.map_cons, head.name, ih]

namespace Compiler

theorem assembly_of_compilesTo {n : Nat} {ds : List Declaration} {types : List BehaviourType}
    (h : List.Forall₂ (CompilesTo n) ds types) : ∀ t ∈ types, t.assembly = n := by
  induction h with
  | nil => simp
  | cons head _ ih => exact List.forall_mem_cons.2 ⟨head.assembly, ih⟩

theorem hasErrors_append (r r' : Report) : Report.hasErrors (r ++ r') = (r.hasErrors || r'.hasErrors) :=
  List.any_append

/-- A base is worth a warning at most. -/
theorem hasErrors_baseWarnings (d : Declaration) : (baseWarnings d).hasErrors = false := by
  unfold baseWarnings
  split
  · split <;> rfl
  · rfl

/-- A redefinition is worth a warning at most. -/
theorem hasErrors_redefinitionWarnings (c : Compiler) (d : Declaration) :
    (c.redefinitionWarnings d).hasErrors = false := by
  unfold redefinitionWarnings
  split <;> rfl

/-- A declaration gives its type or an error, and the type depends on the number of the next assembly only. -/
theorem compileDeclaration_cases (c : Compiler) (d : Declaration) :
    (∃ report t, c.compileDeclaration d = (report, some t) ∧ report.hasErrors = false ∧
      CompilesTo c.nextAssembly d t) ∨
    ∃ report fault, c.compileDeclaration d = (report, none) ∧ report.hasErrors = true ∧
      Body.Program.parse d.body = .error fault := by
  have hwarnings : (baseWarnings d ++ c.redefinitionWarnings d).hasErrors = false := by
    rw [hasErrors_append, hasErrors_baseWarnings, hasErrors_redefinitionWarnings]
    rfl
  unfold compileDeclaration
  rcases hparse : Body.Program.parse d.body with fault | program
  · refine .inr ⟨_, fault, rfl, ?_, rfl⟩
    rw [hasErrors_append, hwarnings]
    rfl
  · exact .inl ⟨_, ⟨d.name, d.base, c.nextAssembly, program⟩, rfl, hwarnings, rfl, rfl, rfl, hparse⟩

/-! ## Section 2 - all declarations of a unit -/

/-- Declarations compile without an error exactly if they are well formed and repeat no name that came
    before. -/
theorem hasErrors_compileAll (c : Compiler) (ds : List Declaration) (seen : List String) :
    (c.compileAll seen ds).1.hasErrors = false ↔ WellFormed ds ∧ ∀ d ∈ ds, d.name ∉ seen := by
  induction ds generalizing seen with
  | nil =>
    have hnil : WellFormed [] := ⟨List.nodup_nil, by simp⟩
    simp [compileAll, Report.hasErrors, hnil]
  | cons d ds ih =>
    rw [compileAll]
    split
    · -- The report begins with the error about the repetition.
      rename_i hseen
      constructor
      · intro h
        cases h
      · rintro ⟨-, hnot⟩
        exact absurd hseen (hnot d List.mem_cons_self)
    · rename_i hseen
      rcases c.compileDeclaration_cases d with ⟨report, t, hd, herr, ht⟩ | ⟨report, fault, hd, herr, hfault⟩
      · rw [hd]
        show (report ++ (c.compileAll (d.name :: seen) ds).1).hasErrors = false ↔ _
        rw [hasErrors_append, herr, Bool.false_or, ih]
        constructor
        · rintro ⟨⟨hnames, hbodies⟩, hfresh⟩
          refine ⟨⟨?_, ?_⟩, ?_⟩
          · refine List.nodup_cons.2 ⟨?_, hnames⟩
            intro hmem
            obtain ⟨x, hx, hname⟩ := List.mem_map.1 hmem
            exact hfresh x hx (hname ▸ List.mem_cons_self)
          · exact List.forall_mem_cons.2 ⟨⟨t.program, ht.program⟩, hbodies⟩
          · exact List.forall_mem_cons.2 ⟨hseen, fun x hx h => hfresh x hx (List.mem_cons_of_mem _ h)⟩
        · rintro ⟨⟨hnames, hbodies⟩, hfresh⟩
          obtain ⟨hd, hds⟩ := List.nodup_cons.1 hnames
          refine ⟨⟨hds, (List.forall_mem_cons.1 hbodies).2⟩, ?_⟩
          intro x hx hmem
          rcases List.mem_cons.1 hmem with heq | hmem
          · exact hd (heq ▸ List.mem_map_of_mem hx)
          · exact hfresh x (List.mem_cons_of_mem d hx) hmem
      · rw [hd]
        show (report ++ (c.compileAll (d.name :: seen) ds).1).hasErrors = false ↔ _
        rw [hasErrors_append, herr, Bool.true_or]
        constructor
        · intro h
          cases h
        · rintro ⟨hwell, -⟩
          obtain ⟨program, hparse⟩ := hwell.bodies d List.mem_cons_self
          rw [hfault] at hparse
          cases hparse

/-- Without an error every declaration has its type. -/
theorem types_compileAll {c : Compiler} {ds : List Declaration} {seen : List String}
    (h : (c.compileAll seen ds).1.hasErrors = false) :
    List.Forall₂ (CompilesTo c.nextAssembly) ds (c.compileAll seen ds).2 := by
  induction ds generalizing seen with
  | nil => exact .nil
  | cons d ds ih =>
    rw [compileAll] at h ⊢
    split at h
    · cases h
    · rename_i hseen
      rw [if_neg hseen]
      rcases c.compileDeclaration_cases d with ⟨report, t, hd, -, ht⟩ | ⟨report, fault, hd, herr, -⟩
      · rw [hd] at h ⊢
        have hrest : (c.compileAll (d.name :: seen) ds).1.hasErrors = false := by
          have happ : (report ++ (c.compileAll (d.name :: seen) ds).1).hasErrors = false := h
          rw [hasErrors_append, Bool.or_eq_false_iff] at happ
          exact happ.2
        exact .cons ht (ih hrest)
      · rw [hd] at h
        have happ : (report ++ (c.compileAll (d.name :: seen) ds).1).hasErrors = false := h
        rw [hasErrors_append, herr] at happ
        cases happ

/-! ## Section 3 - units -/

/-- Whether a text compiles, whatever has been compiled before. -/
def Compiles (unit : String) : Prop := ∃ ds, scan unit = .ok ds ∧ WellFormed ds

/-- A text that does not compile leaves the compiler as it was. -/
theorem compile_of_not_compiles {c : Compiler} {unit : String} (h : ¬ Compiles unit) :
    ∃ report, c.compile unit = (c, ⟨false, report⟩) := by
  unfold compile
  rcases hscan : scan unit with fault | ds
  · exact ⟨_, rfl⟩
  · have hbad : (c.compileAll [] ds).1.hasErrors = true := by
      rw [← Bool.not_eq_false]
      intro hgood
      exact h ⟨ds, hscan, ((c.hasErrors_compileAll ds []).1 hgood).1⟩
    exact ⟨_, if_pos hbad⟩

/-- A text that compiles adds the assembly of its declarations. -/
theorem compile_of_wellFormed {c : Compiler} {unit : String} {ds : List Declaration}
    (hscan : scan unit = .ok ds) (hwell : WellFormed ds) :
    ∃ report types, c.compile unit = (c.emit types, ⟨true, report⟩) ∧
      List.Forall₂ (CompilesTo c.nextAssembly) ds types := by
  have hgood : (c.compileAll [] ds).1.hasErrors = false :=
    (c.hasErrors_compileAll ds []).2 ⟨hwell, by simp⟩
  refine ⟨(c.compileAll [] ds).1, (c.compileAll [] ds).2, ?_, types_compileAll hgood⟩
  unfold compile
  rw [hscan]
  exact if_neg (by simp [hgood])

/-- What a compile leaves behind: the compiler as it was, or one more assembly. -/
theorem compile_cases (c : Compiler) (unit : String) :
    (∃ report, c.compile unit = (c, ⟨false, report⟩)) ∨
    ∃ ds types report, scan unit = .ok ds ∧ WellFormed ds ∧ c.compile unit = (c.emit types, ⟨true, report⟩) ∧
      List.Forall₂ (CompilesTo c.nextAssembly) ds types := by
  by_cases h : Compiles unit
  · obtain ⟨ds, hscan, hwell⟩ := h
    obtain ⟨report, types, hcompile, htypes⟩ := compile_of_wellFormed (c := c) hscan hwell
    exact .inr ⟨ds, types, report, hscan, hwell, hcompile, htypes⟩
  · exact .inl (compile_of_not_compiles h)

/-- A module changes nothing about what has been compiled. -/
theorem reference_keeps (c : Compiler) (m : HostModule) :
    (c.reference m).1.assemblies = c.assemblies ∧ (c.reference m).1.table = c.table := by
  unfold reference
  split <;> exact ⟨rfl, rfl⟩

/-! ## Section 4 - names -/

/-- The entries of types of other names are passed over. -/
theorem lookup_entries {types : List BehaviourType} {name : String} (h : name ∉ types.map BehaviourType.name)
    (f : BehaviourType → TypeRef) (rest : List (String × TypeRef)) :
    ((types.map fun t => (t.name, f t)).reverse ++ rest).lookup name = rest.lookup name := by
  have hnone : (types.map fun t => (t.name, f t)).reverse.lookup name = none := by
    rw [List.lookup_eq_none_iff]
    intro entry hentry
    obtain ⟨t, ht, rfl⟩ := List.mem_map.1 (List.mem_reverse.1 hentry)
    exact bne_iff_ne.2 fun hname => h (hname ▸ List.mem_map_of_mem ht)
  rw [List.lookup_append, hnone, Option.none_or]

/-- A name that no type of a new assembly has stands for what it stood for before. -/
theorem lookup_emit_of_not_mem {types : List BehaviourType} {name : String}
    (h : name ∉ types.map BehaviourType.name) (c : Compiler) : (c.emit types).lookup name = c.lookup name :=
  lookup_entries h _ c.table

/-- The name of a type of a new assembly stands for this type, whatever it stood for before, if no type after it
    has its name. -/
theorem lookup_emit_append {types : List BehaviourType} {t : BehaviourType}
    (h : t.name ∉ types.map BehaviourType.name) (c : Compiler) (earlier : List BehaviourType) :
    (c.emit (earlier ++ t :: types)).lookup t.name =
      some ⟨t, ⟨c.nextAssembly, .wrapper c.nextAssembly :: (earlier ++ t :: types)⟩⟩ := by
  unfold lookup emit
  simp only [List.map_append, List.map_cons, List.reverse_append, List.reverse_cons, List.append_assoc]
  rw [lookup_entries h]
  exact List.lookup_cons_self

/-- The name of the last type of an assembly stands for this type, whatever it stood for before. -/
theorem lookup_emit_last (c : Compiler) (types : List BehaviourType) (t : BehaviourType) :
    (c.emit (types ++ [t])).lookup t.name =
      some ⟨t, ⟨c.nextAssembly, .wrapper c.nextAssembly :: (types ++ [t])⟩⟩ := by
  have hlast : t.name ∉ ([] : List BehaviourType).map BehaviourType.name := List.not_mem_nil
  exact lookup_emit_append hlast c types

end Compiler

end HotReload
