import HotReload.Proofs.Types.Reflection
import HotReload.Proofs.Types.Verdict
import Mathlib.Data.List.Induction
import Mathlib.Data.List.Nodup

/-! # Store: what a compiler keeps, and what its names stand for

    A compiler keeps its history three times: as the list of its assemblies, as their
    numbers, and as the table of names.  A call changes all three or none of them: it
    emits one assembly, or it leaves the assemblies and the names as they were.

    So after any calls the assemblies are numbered in their order and each is well made.
    A name stands for its type in the newest assembly that declares it, in a lookup and in
    an expression alike. -/

namespace HotReload

/-! ## Section 1 - assemblies -/

namespace Assembly

/-- Whether a type of an assembly was declared under a name. -/
def Holds (a : Assembly) (name : String) (t : BehaviourType) : Prop :=
  t ∈ a.types ∧ t.name = name ∧ t.isWrapper = false

/-- Whether an assembly has a declared type of a name. -/
def Declares (a : Assembly) (name : String) : Prop := ∃ t, a.Holds name t

/-- What every assembly satisfies. -/
structure WellMade (a : Assembly) : Prop where
  /-- The wrapper is its first type and stands nowhere else. -/
  wrapped : ∃ types, a.types = .wrapper a.id :: types ∧ ∀ t ∈ types, t.isWrapper = false
  /-- No two of its types have one name. -/
  names : (a.types.map BehaviourType.name).Nodup
  /-- Each of its types bears its number. -/
  numbers : ∀ t ∈ a.types, t.assembly = a.id

theorem WellMade.unique {a : Assembly} (h : a.WellMade) {name : String} {t u : BehaviourType}
    (ht : a.Holds name t) (hu : a.Holds name u) : t = u :=
  List.inj_on_of_nodup_map h.names ht.1 hu.1 (ht.2.1.trans hu.2.1.symm)

end Assembly

/-- Whether a reference leads to the type of a name in the newest assembly that declares the name. -/
def IsNewest (assemblies : List Assembly) (name : String) (ref : TypeRef) : Prop :=
  ∃ older newer, assemblies = older ++ ref.assembly :: newer ∧ ref.assembly.Holds name ref.type ∧
    ∀ a ∈ newer, ¬ a.Declares name

/-- The last assembly is the newest to declare a name, or it does not declare it and says nothing about it. -/
theorem isNewest_append {older : List Assembly} {a : Assembly} {name : String} {ref : TypeRef} :
    IsNewest (older ++ [a]) name ref ↔
      ref.assembly = a ∧ a.Holds name ref.type ∨ ¬ a.Declares name ∧ IsNewest older name ref := by
  constructor
  · rintro ⟨before, newer, heq, hholds, hnewer⟩
    -- The last assembly is the one referred to, or it is the last of those that are newer.
    rcases newer.eq_nil_or_concat' with rfl | ⟨middle, last, rfl⟩
    · obtain ⟨-, hlast⟩ := List.append_inj' heq rfl
      obtain rfl := List.singleton_inj.1 hlast
      exact .inl ⟨rfl, hholds⟩
    · rw [← List.cons_append, ← List.append_assoc] at heq
      obtain ⟨hbefore, hlast⟩ := List.append_inj' heq rfl
      obtain rfl := List.singleton_inj.1 hlast
      refine .inr ⟨hnewer a (by simp), before, middle, hbefore, hholds, ?_⟩
      exact fun x hx => hnewer x (List.mem_append_left _ hx)
  · rintro (⟨rfl, hholds⟩ | ⟨hnot, before, newer, rfl, hholds, hnewer⟩)
    · exact ⟨older, [], rfl, hholds, by simp⟩
    · refine ⟨before, newer ++ [a], by simp, hholds, ?_⟩
      intro x hx
      rcases List.mem_append.1 hx with hx | hx
      · exact hnewer x hx
      · rwa [List.mem_singleton.1 hx]

theorem exists_isNewest_iff {assemblies : List Assembly} {name : String} :
    (∃ ref, IsNewest assemblies name ref) ↔ ∃ a ∈ assemblies, a.Declares name := by
  induction assemblies using List.reverseRecOn with
  | nil => simp [IsNewest]
  | append_singleton older a ih =>
    simp only [isNewest_append, List.mem_append, List.mem_singleton]
    by_cases ha : a.Declares name
    · obtain ⟨t, ht⟩ := ha
      exact iff_of_true ⟨⟨t, a⟩, .inl ⟨rfl, ht⟩⟩ ⟨a, .inr rfl, t, ht⟩
    · constructor
      · rintro ⟨ref, ⟨-, hholds⟩ | ⟨-, hnewest⟩⟩
        · exact absurd ⟨_, hholds⟩ ha
        · obtain ⟨x, hx, hdeclares⟩ := ih.1 ⟨ref, hnewest⟩
          exact ⟨x, .inl hx, hdeclares⟩
      · rintro ⟨x, hx | rfl, hdeclares⟩
        · obtain ⟨ref, hnewest⟩ := ih.2 ⟨x, hx, hdeclares⟩
          exact ⟨ref, .inr ⟨ha, hnewest⟩⟩
        · exact absurd hdeclares ha

namespace Compiler

/-! ## Section 2 - calls -/

/-- A call of a compiler. -/
inductive Call where
  | compile (unit : String)
  | evaluate (expression : String)
  | reference (m : HostModule)

/-- The compiler after a call.  An evaluation only reads it. -/
def perform (c : Compiler) : Call → Compiler
  | .compile unit => (c.compile unit).1
  | .evaluate _ => c
  | .reference m => (c.reference m).1

/-- The compiler after calls, one after the other. -/
def run (c : Compiler) (calls : List Call) : Compiler := calls.foldl perform c

/-- Types that a compile may emit in the assembly of a number. -/
structure Emittable (assembly : Nat) (types : List BehaviourType) : Prop where
  declared : ∀ t ∈ types, t.isWrapper = false
  names : (types.map BehaviourType.name).Nodup
  numbers : ∀ t ∈ types, t.assembly = assembly

/-- The types of a well-formed unit may be emitted. -/
theorem emittable_of_compilesTo {unit : String} {ds : List Declaration} (hscan : scan unit = .ok ds)
    (hwell : WellFormed ds) {n : Nat} {types : List BehaviourType} (htypes : List.Forall₂ (CompilesTo n) ds types) :
    Emittable n types := by
  have hnames := names_of_compilesTo htypes
  refine ⟨?_, hnames ▸ hwell.names, assembly_of_compilesTo htypes⟩
  intro t ht
  have hmem : t.name ∈ ds.map Declaration.name := hnames ▸ List.mem_map_of_mem ht
  obtain ⟨d, hd, hname⟩ := List.mem_map.1 hmem
  exact decide_eq_false (hname ▸ name_ne_wrapperName hscan d hd)

/-- What a call leaves behind: the assemblies and names as they were, or one more assembly. -/
theorem perform_cases (c : Compiler) (call : Call) :
    ((c.perform call).assemblies = c.assemblies ∧ (c.perform call).table = c.table) ∨
    ∃ types, Emittable c.nextAssembly types ∧ c.perform call = c.emit types := by
  cases call with
  | compile unit =>
    rcases c.compile_cases unit with ⟨report, hc⟩ | ⟨ds, types, report, hscan, hwell, hc, htypes⟩
    · refine .inl ?_
      rw [perform, hc]
      exact ⟨rfl, rfl⟩
    · exact .inr ⟨types, emittable_of_compilesTo hscan hwell htypes, by rw [perform, hc]⟩
  | evaluate expression => exact .inl ⟨rfl, rfl⟩
  | reference m => exact .inl (c.reference_keeps m)

/-! ## Section 3 - the invariant -/

/-- What holds of the assemblies that a compiler has emitted. -/
structure Keeps (c : Compiler) : Prop where
  /-- They are numbered from one on, in the order in which they were emitted. -/
  ids : c.assemblies.map Assembly.id = List.range' 1 c.assemblies.length
  wellMade : ∀ a ∈ c.assemblies, a.WellMade

/-- Whether each name stands for its type in the newest assembly that declares it. -/
def LatestWins (c : Compiler) : Prop := ∀ name ref, c.lookup name = some ref ↔ IsNewest c.assemblies name ref

section
variable {c : Compiler} {types : List BehaviourType} (h : Emittable c.nextAssembly types)
include h

theorem wellMade_emit : Assembly.WellMade ⟨c.nextAssembly, .wrapper c.nextAssembly :: types⟩ := by
  refine ⟨⟨types, rfl, h.declared⟩, ?_, List.forall_mem_cons.2 ⟨rfl, h.numbers⟩⟩
  refine List.nodup_cons.2 ⟨?_, h.names⟩
  intro hmem
  obtain ⟨t, ht, hname⟩ := List.mem_map.1 hmem
  exact of_decide_eq_false (h.declared t ht) hname

theorem holds_emit {name : String} {t : BehaviourType} :
    Assembly.Holds ⟨c.nextAssembly, .wrapper c.nextAssembly :: types⟩ name t ↔ t ∈ types ∧ t.name = name := by
  constructor
  · rintro ⟨hmem, hname, hwrapper⟩
    rcases List.mem_cons.1 hmem with rfl | hmem
    · cases hwrapper
    · exact ⟨hmem, hname⟩
  · rintro ⟨hmem, hname⟩
    exact ⟨List.mem_cons_of_mem _ hmem, hname, h.declared t hmem⟩

theorem keeps_emit (hc : c.Keeps) : (c.emit types).Keeps := by
  constructor
  · let emitted : Assembly := ⟨c.nextAssembly, .wrapper c.nextAssembly :: types⟩
    show (c.assemblies ++ [emitted]).map Assembly.id = List.range' 1 (c.assemblies ++ [emitted]).length
    rw [List.map_append, hc.ids, List.length_append, List.length_singleton, List.range'_concat]
    simp [emitted, nextAssembly, Nat.add_comm]
  · intro a ha
    rcases List.mem_append.1 ha with ha | ha
    · exact hc.wellMade a ha
    · rw [List.mem_singleton.1 ha]
      exact wellMade_emit h

/-- The names of a new assembly stand for its types, and all others for what they stood for before. -/
theorem latestWins_emit (hc : c.LatestWins) : (c.emit types).LatestWins := by
  intro name ref
  show _ ↔ IsNewest (c.assemblies ++ [⟨c.nextAssembly, .wrapper c.nextAssembly :: types⟩]) name ref
  rw [isNewest_append]
  -- Only the names of the new types get an entry, and no entry of another type comes before theirs.
  by_cases hname : name ∈ types.map BehaviourType.name
  · obtain ⟨t, ht, rfl⟩ := List.mem_map.1 hname
    have hholds := (holds_emit h).2 ⟨ht, rfl⟩
    obtain ⟨earlier, later, rfl⟩ := List.append_of_mem ht
    have hlater : t.name ∉ later.map BehaviourType.name := by
      have hnames := h.names
      rw [List.map_append, List.map_cons] at hnames
      exact (List.nodup_cons.1 (List.nodup_append.1 hnames).2.1).1
    rw [lookup_emit_append hlater, Option.some_inj]
    constructor
    · rintro rfl
      exact .inl ⟨rfl, hholds⟩
    · rintro (⟨hassembly, href⟩ | ⟨hnot, -⟩)
      · obtain rfl := (wellMade_emit h).unique hholds href
        rw [← hassembly]
      · exact absurd ⟨t, hholds⟩ hnot
  · have hnot : ¬ Assembly.Declares ⟨c.nextAssembly, .wrapper c.nextAssembly :: types⟩ name := by
      rintro ⟨t, ht⟩
      obtain ⟨hmem, rfl⟩ := (holds_emit h).1 ht
      exact hname (List.mem_map_of_mem hmem)
    rw [lookup_emit_of_not_mem hname, hc name ref]
    constructor
    · exact fun hnewest => .inr ⟨hnot, hnewest⟩
    · rintro (⟨-, href⟩ | ⟨-, hnewest⟩)
      · exact absurd ⟨_, href⟩ hnot
      · exact hnewest

end

theorem keeps_fresh : fresh.Keeps := ⟨rfl, by simp [fresh]⟩

theorem latestWins_fresh : fresh.LatestWins := by
  intro name ref
  simp [fresh, lookup, IsNewest]

theorem keeps_of_eq {c c' : Compiler} (h : c.Keeps) (heq : c'.assemblies = c.assemblies) : c'.Keeps :=
  ⟨heq ▸ h.ids, heq ▸ h.wellMade⟩

theorem keeps_perform {c : Compiler} (h : c.Keeps) (call : Call) : (c.perform call).Keeps := by
  rcases c.perform_cases call with ⟨hassemblies, -⟩ | ⟨types, htypes, heq⟩
  · exact keeps_of_eq h hassemblies
  · rw [heq]
    exact keeps_emit htypes h

theorem latestWins_perform {c : Compiler} (h : c.LatestWins) (call : Call) : (c.perform call).LatestWins := by
  rcases c.perform_cases call with ⟨hassemblies, htable⟩ | ⟨types, htypes, heq⟩
  · intro name ref
    rw [lookup, htable, hassemblies]
    exact h name ref
  · rw [heq]
    exact latestWins_emit htypes h

/-- A call removes no assembly and changes none. -/
theorem assemblies_perform (c : Compiler) (call : Call) : c.assemblies <+: (c.perform call).assemblies := by
  rcases c.perform_cases call with ⟨hassemblies, -⟩ | ⟨types, -, heq⟩
  · exact hassemblies ▸ List.prefix_rfl
  · rw [heq]
    exact List.prefix_append _ _

/-! ## Section 4 - runs -/

theorem run_append (c : Compiler) (calls more : List Call) : c.run (calls ++ more) = (c.run calls).run more :=
  List.foldl_append

/-- What every call preserves, calls one after the other preserve. -/
theorem run_invariant {P : Compiler → Prop} (hstep : ∀ {c}, P c → ∀ call, P (c.perform call)) {c : Compiler} (h : P c)
    (calls : List Call) : P (c.run calls) := by
  induction calls generalizing c with
  | nil => exact h
  | cons call calls ih => exact ih (hstep h call)

theorem assemblies_run (c : Compiler) (calls : List Call) : c.assemblies <+: (c.run calls).assemblies :=
  run_invariant (P := fun k => c.assemblies <+: k.assemblies) (fun h call => h.trans (assemblies_perform _ call))
    List.prefix_rfl calls

/-- What the names of a compiler stand for, in lookups and in expressions. -/
structure Resolves (c : Compiler) : Prop where
  some_iff : ∀ name ref, c.lookup name = some ref ↔ IsNewest c.assemblies name ref
  none_iff : ∀ name, c.lookup name = none ↔ ∀ a ∈ c.assemblies, ¬ a.Declares name
  wrapper : c.lookup wrapperName = none
  /-- The reflection replies with what a lookup finds, and refuses if it finds nothing. -/
  replies : ∃ f, c.reflection.function? "type_ref" [.string] = some f ∧
    ∀ name, f.run [.string name] = ⟨c.reply name, []⟩
  /-- This is what an expression gets that asks for a name, unless a module hides the reflection. -/
  evaluates : c.Reflects → ∀ p q name,
    Body.Expr.evaluate c.engine (.call p "type_ref" [.literal q (.string name)]) =
      ⟨(c.reply name).mapError fun text => .raised (.refused text) p, []⟩

theorem LatestWins.resolves {c : Compiler} (h : c.LatestWins) : c.Resolves := by
  have hnone : ∀ name, c.lookup name = none ↔ ∀ a ∈ c.assemblies, ¬ a.Declares name := by
    intro name
    have hsome : (∃ ref, c.lookup name = some ref) ↔ ∃ a ∈ c.assemblies, a.Declares name := by
      rw [← exists_isNewest_iff]
      exact exists_congr (h name)
    rw [Option.eq_none_iff_forall_ne_some, ← not_exists, hsome]
    simp
  refine ⟨h, hnone, (hnone _).2 ?_, c.function?_reflection, fun hreflects => evaluate_reflection hreflects⟩
  rintro a - ⟨t, -, hname, hwrapper⟩
  exact of_decide_eq_false hwrapper hname

/-- After any calls on a fresh compiler its assemblies are numbered and well made, its names stand for the newest
    types, and no more calls change or remove an assembly. -/
theorem run_resolves_latest (calls more : List Call) :
    (fresh.run calls).Keeps ∧ (fresh.run calls).Resolves ∧
      (fresh.run calls).assemblies <+: (fresh.run (calls ++ more)).assemblies := by
  refine ⟨run_invariant keeps_perform keeps_fresh calls,
    LatestWins.resolves (run_invariant latestWins_perform latestWins_fresh calls), ?_⟩
  rw [run_append]
  exact assemblies_run _ more

end Compiler

end HotReload
