import HotReload.Proofs.Script.Exactness

/-! # The modules that a compiler has been given

    A context and the host share one set of modules, and whoever holds the set can add to
    it.  The compiler keeps a list of its own.  It takes over the whole set at its first
    use, and from then on it is told of a module only if that is offered to the context.

    So a module that *slips* into the set behind the back of a compiler in use is one
    that the compiler never learns of: to offer it afterwards comes too late, because the
    set holds its name by then.  Everything else in the set is known to the compiler,
    once and in the order of the set. -/

namespace HotReload

namespace Context

/-! ## Section 1 - uses of a context -/

/-- What can happen to a context and to the set that it shares. -/
inductive Usage where
  /-- A module is offered to the context. -/
  | offer (m : HostModule)
  | compile (unit : String)
  | evaluate (expression : String)
  /-- Another holder of the set adds a module to it. -/
  | slip (m : HostModule)

/-- What a use leads to. -/
def use (c : Context) : Usage → Context
  | .offer m => c.addModule m
  | .compile unit => (c.compile unit).context
  | .evaluate expression => (c.evaluate expression).context
  | .slip m => { c with modules := c.modules.add m }

/-- Uses one after the other. -/
def run (c : Context) (uses : List Usage) : Context := uses.foldl use c

/-- The name that gets into the set while the compiler is in use and is not told, if there is one. -/
def slips (c : Context) : Usage → List String
  | .slip m => if c.bootstrapped && !c.modules.holds m.name then [m.name] else []
  | _ => []

/-- All names that get into the set in this way. -/
def slipped (c : Context) : List Usage → List String
  | [] => []
  | u :: rest => c.slips u ++ (c.use u).slipped rest

/-- The compiler has referenced the names of the set, in the same order. -/
def InStep (c : Context) : Prop := c.compiler.referenced = c.modules.names

/-- Everything that an offer can come to: the set has the name, the compiler is not in use yet, or it is
    told of the module. -/
theorem addModule_cases (c : Context) (m : HostModule) :
    (m.name ∈ c.modules.names ∧ c.addModule m = c) ∨
    (m.name ∉ c.modules.names ∧ c.bootstrapped = false ∧
      c.addModule m = { c with modules := c.modules ++ [m] }) ∨
    (m.name ∉ c.modules.names ∧ c.bootstrapped = true ∧
      c.addModule m = { c with modules := c.modules ++ [m], compiler := (c.compiler.reference m).1 }) := by
  unfold addModule ModuleSet.add
  rw [← ModuleSet.holds_iff]
  cases hm : c.modules.holds m.name with
  | true => exact .inl ⟨rfl, rfl⟩
  | false =>
    right
    cases hb : c.bootstrapped with
    | false => exact .inl ⟨by simp, rfl, by simp⟩
    | true => exact .inr ⟨by simp, rfl, by simp⟩

/-- And everything that an addition by others can come to. -/
theorem slip_cases (c : Context) (m : HostModule) :
    (c.use (.slip m) = c ∧ c.slips (.slip m) = []) ∨
    (m.name ∉ c.modules.names ∧ c.bootstrapped = false ∧
      c.use (.slip m) = { c with modules := c.modules ++ [m] } ∧ c.slips (.slip m) = []) ∨
    (m.name ∉ c.modules.names ∧ c.bootstrapped = true ∧
      c.use (.slip m) = { c with modules := c.modules ++ [m] } ∧ c.slips (.slip m) = [m.name]) := by
  unfold use slips ModuleSet.add
  rw [← ModuleSet.holds_iff]
  cases hm : c.modules.holds m.name with
  | true => exact .inl ⟨by simp [hm], by simp [hm]⟩
  | false =>
    right
    cases hb : c.bootstrapped with
    | false => exact .inl ⟨by simp, rfl, by simp [hm], by simp⟩
    | true => exact .inr ⟨by simp, rfl, by simp [hm], by simp [hm]⟩

/-! ## Section 2 - the invariant -/

/-- The compiler knows the modules of the set but for those that have slipped in, and nothing before its
    first use. -/
structure Abreast (c : Context) (late : List String) : Prop where
  nodup : c.modules.names.Nodup
  /-- What has slipped in is in the set for good. -/
  held : ∀ name ∈ late, name ∈ c.modules.names
  idle : c.bootstrapped = false → c.compiler.modules = [] ∧ late = []
  known : c.bootstrapped = true → c.compiler.modules = c.modules.filter fun m => m.name ∉ late

theorem nodup_names_ofList (ms : List HostModule) : (ModuleSet.ofList ms).names.Nodup := by
  suffices hall : ∀ s : ModuleSet, s.names.Nodup → (ms.foldl ModuleSet.add s).names.Nodup from
    hall [] List.nodup_nil
  induction ms with
  | nil => exact fun _ h => h
  | cons m rest ih => exact fun s h => ih (s.add m) (ModuleSet.nodup_names_add h m)

theorem abreast_offering (ms : List HostModule) : (offering ms).Abreast [] where
  nodup := nodup_names_ofList ms
  held := by simp
  idle := fun _ => ⟨rfl, rfl⟩
  known := by
    intro h
    cases h

/-- A compiler is told of modules in the order in which they come, if it knows none of their names. -/
theorem modules_referenceAll (k : Compiler) (ms : List HostModule)
    (h : (k.referenced ++ ms.map HostModule.name).Nodup) :
    (referenceAll k ms).1.modules = k.modules ++ ms := by
  induction ms generalizing k with
  | nil => simp [referenceAll]
  | cons m rest ih =>
    have hnew : m.name ∉ k.referenced := by
      intro hm
      exact (List.nodup_append.1 h).2.2 m.name hm m.name (by simp) rfl
    have hstep : k.reference m = ({ k with modules := k.modules ++ [m] }, true) := by
      rw [Compiler.reference, if_neg hnew]
    have hnext : (({ k with modules := k.modules ++ [m] } : Compiler).referenced ++
        rest.map HostModule.name).Nodup := by
      simpa [Compiler.referenced] using h
    rw [referenceAll, hstep]
    dsimp only
    rw [ih _ hnext, List.append_assoc]
    rfl

namespace Abreast
variable {c : Context} {late : List String}

/-- The first use of the compiler takes over the whole set, and no later one anything. -/
theorem bootstrap (h : c.Abreast late) :
    c.bootstrap.1.Abreast late ∧ c.bootstrap.1.modules = c.modules := by
  cases hb : c.bootstrapped with
  | true =>
    rw [bootstrap_of_bootstrapped hb]
    exact ⟨h, rfl⟩
  | false =>
    obtain ⟨hnone, rfl⟩ := h.idle hb
    have hmodules : (referenceAll c.compiler c.modules).1.modules = c.modules := by
      rw [modules_referenceAll _ _ (by simpa [Compiler.referenced, ModuleSet.names, hnone] using h.nodup), hnone]
      rfl
    unfold Context.bootstrap
    rw [hb]
    refine ⟨⟨h.nodup, by simp, fun hb' => absurd hb' (by simp), fun _ => ?_⟩, rfl⟩
    simpa using hmodules

/-- A change of the compiler that is no matter of modules. -/
theorem withCompiler (h : c.Abreast late) {k : Compiler} (hk : k.modules = c.compiler.modules) :
    ({ c with compiler := k } : Context).Abreast late where
  nodup := h.nodup
  held := h.held
  idle := fun hb => ⟨hk.trans (h.idle hb).1, (h.idle hb).2⟩
  known := fun hb => hk.trans (h.known hb)

/-- A new module leaves the names of the set distinct, and in it what was there. -/
theorem append (h : c.Abreast late) {m : HostModule} (hnew : m.name ∉ c.modules.names) :
    (ModuleSet.names (c.modules ++ [m])).Nodup ∧ ∀ name ∈ late, name ∈ ModuleSet.names (c.modules ++ [m]) := by
  have hnames : ModuleSet.names (c.modules ++ [m]) = c.modules.names ++ [m.name] := List.map_append
  rw [hnames]
  refine ⟨h.nodup.append (List.nodup_singleton _) (by simpa using hnew), fun name hname => ?_⟩
  exact List.mem_append_left _ (h.held name hname)

/-- A module that is offered is known from then on, or from the first use on. -/
theorem addModule (h : c.Abreast late) (m : HostModule) : (c.addModule m).Abreast late := by
  rcases c.addModule_cases m with ⟨-, heq⟩ | ⟨hnew, hb, heq⟩ | ⟨hnew, hb, heq⟩ <;> rw [heq]
  · exact h
  · obtain ⟨hnodup, hheld⟩ := h.append hnew
    exact ⟨hnodup, hheld, fun _ => h.idle hb, fun hb' => absurd (hb.symm.trans hb') (by simp)⟩
  · obtain ⟨hnodup, hheld⟩ := h.append hnew
    refine ⟨hnodup, hheld, fun hb' => absurd (hb.symm.trans hb') (by simp), fun _ => ?_⟩
    -- the compiler knows names of the set only, so the new one is new to it as well
    have hunknown : m.name ∉ c.compiler.referenced := by
      intro hmem
      obtain ⟨m', hm', hname⟩ := List.mem_map.1 hmem
      rw [h.known hb] at hm'
      exact hnew (hname ▸ List.mem_map_of_mem (List.mem_filter.1 hm').1)
    have hnotlate : m.name ∉ late := fun hlate => hnew (h.held m.name hlate)
    dsimp only
    rw [Compiler.reference, if_neg hunknown, List.filter_append, ← h.known hb]
    simp [hnotlate]

/-- A module that slips in stays unknown. -/
theorem slip (h : c.Abreast late) (m : HostModule) : (c.use (.slip m)).Abreast (late ++ c.slips (.slip m)) := by
  rcases c.slip_cases m with ⟨heq, hslips⟩ | ⟨hnew, hb, heq, hslips⟩ | ⟨hnew, hb, heq, hslips⟩ <;>
    rw [heq, hslips]
  · simpa using h
  · obtain ⟨hnodup, hheld⟩ := h.append hnew
    rw [List.append_nil]
    exact ⟨hnodup, hheld, fun _ => h.idle hb, fun hb' => absurd (hb.symm.trans hb') (by simp)⟩
  · obtain ⟨hnodup, hheld⟩ := h.append hnew
    refine ⟨hnodup, ?_, fun hb' => absurd (hb.symm.trans hb') (by simp), fun _ => ?_⟩
    · intro name hname
      rcases List.mem_append.1 hname with hold | hlate
      · exact hheld name hold
      · rw [List.mem_singleton.1 hlate]
        exact List.mem_map_of_mem List.mem_concat_self
    · -- the new module is passed over, and no other has its name
      have hlast : [m].filter (fun x => decide (x.name ∉ late ++ [m.name])) = [] := by simp
      dsimp only
      rw [h.known hb, List.filter_append, hlast, List.append_nil]
      apply List.filter_congr
      intro x hx
      have hother : x.name ≠ m.name := fun heq => hnew (heq ▸ List.mem_map_of_mem hx)
      simp [hother]

/-- What slips in is all that an invariant of the modules has to keep account of. -/
theorem use (h : c.Abreast late) (u : Usage) : (c.use u).Abreast (late ++ c.slips u) := by
  have hnone : late ++ [] = late := List.append_nil late
  cases u with
  | offer m =>
    show (c.addModule m).Abreast (late ++ [])
    exact hnone.symm ▸ h.addModule m
  | compile unit =>
    show (c.compile unit).context.Abreast (late ++ [])
    rw [hnone]
    have hmodules : (c.bootstrap.1.compiler.compile unit).1.modules = c.bootstrap.1.compiler.modules := by
      unfold Compiler.compile
      split
      · rfl
      · dsimp only
        split <;> rfl
    exact h.bootstrap.1.withCompiler hmodules
  | evaluate expression =>
    show c.bootstrap.1.Abreast (late ++ [])
    rw [hnone]
    exact h.bootstrap.1
  | slip m => exact h.slip m

theorem run (h : c.Abreast late) (uses : List Usage) : (c.run uses).Abreast (late ++ c.slipped uses) := by
  induction uses generalizing c late with
  | nil => simpa [Context.run, slipped] using h
  | cons u rest ih =>
    rw [slipped, ← List.append_assoc]
    exact ih (h.use u)

end Abreast

/-! ## Section 3 - modules that are offered -/

/-- The set only grows. -/
theorem modules_use (c : Context) (u : Usage) : c.modules <+: (c.use u).modules := by
  have hbootstrap : c.bootstrap.1.modules = c.modules := by
    unfold bootstrap
    split <;> rfl
  cases u with
  | offer m =>
    show c.modules <+: (c.addModule m).modules
    rcases c.addModule_cases m with ⟨-, heq⟩ | ⟨-, -, heq⟩ | ⟨-, -, heq⟩
    · exact (congrArg Context.modules heq) ▸ List.prefix_rfl
    · exact heq ▸ List.prefix_append _ _
    · exact heq ▸ List.prefix_append _ _
  | compile unit => exact hbootstrap ▸ List.prefix_rfl
  | evaluate expression => exact hbootstrap ▸ List.prefix_rfl
  | slip m =>
    rcases c.slip_cases m with ⟨heq, -⟩ | ⟨-, -, heq, -⟩ | ⟨-, -, heq, -⟩
    · exact (congrArg Context.modules heq) ▸ List.prefix_rfl
    · exact heq ▸ List.prefix_append _ _
    · exact heq ▸ List.prefix_append _ _

theorem modules_run (c : Context) (uses : List Usage) : c.modules <+: (c.run uses).modules := by
  induction uses generalizing c with
  | nil => exact List.prefix_rfl
  | cons u rest ih => exact (c.modules_use u).trans (ih (c.use u))

/-- A name that is in the set cannot slip in any more. -/
theorem not_slipped {c : Context} {name : String} (h : name ∈ c.modules.names) (uses : List Usage) :
    name ∉ c.slipped uses := by
  induction uses generalizing c with
  | nil => simp [slipped]
  | cons u rest ih =>
    have hnext : name ∈ (c.use u).modules.names := ((c.modules_use u).map HostModule.name).subset h
    have hnow : name ∉ c.slips u := by
      cases u with
      | slip m =>
        rcases c.slip_cases m with ⟨-, hslips⟩ | ⟨-, -, -, hslips⟩ | ⟨hnew, -, -, hslips⟩ <;> rw [hslips]
        · simp
        · simp
        · exact fun hname => hnew (List.mem_singleton.1 hname ▸ h)
      | offer m => simp [slips]
      | compile unit => simp [slips]
      | evaluate expression => simp [slips]
    simpa [slipped] using ⟨hnow, ih hnext⟩

/-- An offer puts the name into the set at any rate, and the module itself if its name is new. -/
theorem offer_modules (c : Context) (m : HostModule) :
    m.name ∈ (c.use (.offer m)).modules.names ∧
      (m.name ∉ c.modules.names → (c.use (.offer m)).modules = c.modules ++ [m]) := by
  show m.name ∈ (c.addModule m).modules.names ∧ _
  have hlast : m.name ∈ ModuleSet.names (c.modules ++ [m]) := List.mem_map_of_mem List.mem_concat_self
  unfold use
  rcases c.addModule_cases m with ⟨hold, heq⟩ | ⟨-, -, heq⟩ | ⟨-, -, heq⟩ <;> simp only [heq]
  · exact ⟨hold, fun hnew => absurd hold hnew⟩
  · exact ⟨hlast, fun _ => trivial⟩
  · exact ⟨hlast, fun _ => trivial⟩

namespace Abreast
variable {c : Context} {late : List String}

/-- What the compiler knows when it is used next. -/
theorem known_bootstrap (h : c.Abreast late) :
    c.bootstrap.1.compiler.modules = c.modules.filter fun m => m.name ∉ late := by
  obtain ⟨hnext, hmodules⟩ := h.bootstrap
  rw [hnext.known c.bootstrapped_bootstrap, hmodules]

theorem mem_referenced_bootstrap (h : c.Abreast late) {name : String} :
    name ∈ c.bootstrap.1.compiler.referenced ↔ name ∈ c.modules.names ∧ name ∉ late := by
  unfold Compiler.referenced
  rw [h.known_bootstrap]
  constructor
  · intro hname
    obtain ⟨m, hm, rfl⟩ := List.mem_map.1 hname
    obtain ⟨hmem, hlate⟩ := List.mem_filter.1 hm
    exact ⟨List.mem_map_of_mem hmem, of_decide_eq_true hlate⟩
  · rintro ⟨hname, hlate⟩
    obtain ⟨m, hm, rfl⟩ := List.mem_map.1 hname
    exact List.mem_map_of_mem (List.mem_filter.2 ⟨hm, decide_eq_true hlate⟩)

/-- The lists are the same if nothing has slipped in, and else the compiler's is shorter. -/
theorem inStep_iff (h : c.Abreast late) (hb : c.bootstrapped = true) : c.InStep ↔ late = [] := by
  constructor
  · intro hstep
    rw [List.eq_nil_iff_forall_not_mem]
    intro name hlate
    have hname : name ∈ c.bootstrap.1.compiler.referenced := by
      rw [bootstrap_of_bootstrapped hb, hstep]
      exact h.held name hlate
    exact (h.mem_referenced_bootstrap.1 hname).2 hlate
  · rintro rfl
    unfold InStep Compiler.referenced
    rw [h.known hb]
    simp [ModuleSet.names]

/-- A module whose name was new is the last that the compiler has been given. -/
theorem function?_offer (h : c.Abreast late) {m : HostModule} (hnew : m.name ∉ c.modules.names)
    {name : String} {kinds : List Kind} {f : HostFunction} (hf : m.function? name kinds = some f) :
    Engine.function? (c.use (.offer m)).bootstrap.1.compiler.engine name kinds = some f := by
  have hoffered := (h.use (.offer m)).known_bootstrap
  have hnotlate : m.name ∉ late ++ c.slips (.offer m) := by
    simpa [slips] using fun hlate => hnew (h.held m.name hlate)
  rw [(c.offer_modules m).2 hnew, List.filter_append] at hoffered
  simp only [hnotlate, List.filter_cons, decide_true, if_true, List.filter_nil, not_false_eq_true] at hoffered
  rw [Compiler.engine, hoffered, ← List.cons_append, Engine.function?_install, hf]
  rfl

end Abreast

/-! ## Section 4 - the main theorem -/

/-- A compiler in use has referenced the modules of the set, each once and in the order of the set, except
    for those that have slipped in; so it is in step with the set exactly if none has.  A module that is
    offered is known from then on exactly if none of its name has slipped in before.  If its name is
    new, it is this module that is known, and a call with any signature that it offers is answered by
    it. -/
theorem inStep_iff_none_slipped (offered : List HostModule) (uses : List Usage) :
    let c := (offering offered).run uses
    let late := (offering offered).slipped uses
    (c.bootstrapped = true → (c.InStep ↔ late = []) ∧ c.compiler.referenced.Nodup ∧
      c.compiler.modules = c.modules.filter fun m => m.name ∉ late) ∧
    ∀ m : HostModule,
      (∀ more, m.name ∈ ((c.use (.offer m)).run more).bootstrap.1.compiler.referenced ↔ m.name ∉ late) ∧
      (m.name ∉ c.modules.names →
        (∀ more, m ∈ ((c.use (.offer m)).run more).bootstrap.1.compiler.modules) ∧
        ∀ name kinds f, m.function? name kinds = some f →
          Engine.function? (c.use (.offer m)).bootstrap.1.compiler.engine name kinds = some f) := by
  intro c late
  have h : c.Abreast late := (abreast_offering offered).run uses
  refine ⟨fun hb => ⟨h.inStep_iff hb, ?_, h.known hb⟩, fun m => ?_⟩
  · unfold Compiler.referenced
    rw [h.known hb]
    exact h.nodup.sublist (List.filter_sublist.map _)
  obtain ⟨hheld, hlast⟩ := c.offer_modules m
  -- nothing under the name of the module slips in once it has been offered
  have hlater : ∀ more, (((c.use (.offer m)).run more).Abreast (late ++ (c.use (.offer m)).slipped more)) ∧
      m.name ∉ (c.use (.offer m)).slipped more := by
    intro more
    have hoffered : (c.use (.offer m)).Abreast late := by simpa [slips] using h.use (.offer m)
    exact ⟨hoffered.run more, not_slipped hheld more⟩
  refine ⟨fun more => ?_, fun hnew => ⟨fun more => ?_, fun name kinds f hf => h.function?_offer hnew hf⟩⟩
  · obtain ⟨hrun, hnot⟩ := hlater more
    have hstays : m.name ∈ ((c.use (.offer m)).run more).modules.names :=
      (((c.use (.offer m)).modules_run more).map HostModule.name).subset hheld
    rw [hrun.mem_referenced_bootstrap]
    simp [hstays, hnot]
  · obtain ⟨hrun, hnot⟩ := hlater more
    have hin : m ∈ (c.use (.offer m)).modules := hlast hnew ▸ List.mem_concat_self
    have hearly : m.name ∉ late := fun hlate => hnew (h.held m.name hlate)
    rw [hrun.known_bootstrap, List.mem_filter]
    refine ⟨((c.use (.offer m)).modules_run more).subset hin, decide_eq_true ?_⟩
    simpa using ⟨hearly, hnot⟩

/-- A module with a function that gives a number. -/
def sevenModule : HostModule where
  name := "seven"
  functions := [{ name := "seven", params := [], run := fun _ => ⟨.ok (.int 7), []⟩ }]

/-- A module slips in after the first evaluation, and is then offered: the set holds it, but the compiler
    does not know it, and a call of its function fails. -/
theorem slipped_module_stays_unknown :
    let c := (offering []).run [.evaluate "1", .slip sevenModule, .offer sevenModule]
    c.bootstrapped = true ∧ c.modules.names = ["seven"] ∧ c.compiler.referenced = [] ∧
      Engine.function? c.compiler.engine "seven" [] = none ∧ (c.evaluate "seven()").value.isOk = false := by
  decide +kernel

end Context

end HotReload
