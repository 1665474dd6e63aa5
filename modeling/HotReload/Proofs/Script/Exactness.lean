import HotReload.Proofs.Types.Store
import HotReload.Proofs.Unit.Appendix
import HotReload.Script.Extraction
import HotReload.Proofs.Lists

/-! # Exactness: what is extracted from a source

    A source is compiled together with a marker, and the assembly of the marker is the
    one that this compile has emitted: the marker is its last type, and a name stands for
    the newest type that has it.  So whatever has been compiled before, the candidates
    are the declared types of the source, and the marker is found whenever the source
    compiles.

    The marker changes nothing about which sources compile, but for those that declare
    a type of its name. -/

namespace HotReload

open Scan

/-! ## Section 1 - histories -/

/-- A compiler that has come about by use. -/
inductive Compiler.Reachable : Compiler → Prop where
  | fresh : Reachable .fresh
  | compile {c : Compiler} (unit : String) : Reachable c → Reachable (c.compile unit).1
  | reference {c : Compiler} (m : HostModule) : Reachable c → Reachable (c.reference m).1

/-- A context that has come about by use.  It begins with any compiler that has come about.  The set of
    modules is shared with the host and the numbers of markers with other contexts, so both may change
    from outside. -/
inductive Context.Reachable : Context → Prop where
  | start {compiler : Compiler} (hcompiler : compiler.Reachable) (modules : List HostModule) :
      Reachable { Context.offering modules with compiler := compiler }
  | addModule {c : Context} (m : HostModule) : Reachable c → Reachable (c.addModule m)
  | offer {c : Context} (m : HostModule) : Reachable c → Reachable { c with modules := c.modules.add m }
  | setLogWarnings {c : Context} (on : Bool) : Reachable c → Reachable { c with logWarnings := on }
  | takeMarkers {c : Context} (next : Nat) : Reachable c → Reachable { c with nextMarker := next }
  | compile {c : Context} (unit : String) : Reachable c → Reachable (c.compile unit).context
  | evaluate {c : Context} (expression : String) : Reachable c → Reachable (c.evaluate expression).context
  | extract {c : Context} (source : String) : Reachable c → Reachable (c.extract source).context

/-- The types of a compiler bear the numbers of the assemblies that hold them, and these numbers are
    all taken. -/
structure Compiler.Numbered (c : Compiler) : Prop where
  ids : ∀ a ∈ c.assemblies, a.id ≤ c.assemblies.length
  types : ∀ a ∈ c.assemblies, ∀ t ∈ a.types, t.assembly = a.id

namespace Compiler

theorem Keeps.numbered {c : Compiler} (h : c.Keeps) : c.Numbered := by
  refine ⟨?_, fun a ha => (h.wellMade a ha).numbers⟩
  intro a ha
  have hid : a.id ∈ c.assemblies.map Assembly.id := List.mem_map_of_mem ha
  rw [h.ids, List.mem_range'_1] at hid
  omega

/-- A compile references no module. -/
theorem modules_compile (c : Compiler) (unit : String) : (c.compile unit).1.modules = c.modules := by
  rcases c.compile_cases unit with ⟨report, hc⟩ | ⟨ds, types, report, -, -, hc, -⟩ <;> rw [hc]
  rfl

/-- Compiling hides the reflection from no expression. -/
theorem reflects_compile {c : Compiler} (h : c.Reflects) (unit : String) : (c.compile unit).1.Reflects := by
  unfold Reflects
  rw [modules_compile]
  exact h

theorem Reachable.keeps {c : Compiler} (h : c.Reachable) : c.Keeps := by
  induction h with
  | fresh => exact keeps_fresh
  | compile unit _ ih => exact keeps_perform ih (.compile unit)
  | reference m _ ih => exact keeps_perform ih (.reference m)

end Compiler

namespace Context

theorem referenceAll_keeps (c : Compiler) (ms : List HostModule) :
    (referenceAll c ms).1.assemblies = c.assemblies ∧ (referenceAll c ms).1.table = c.table := by
  induction ms generalizing c with
  | nil => exact ⟨rfl, rfl⟩
  | cons m ms ih =>
    obtain ⟨hassemblies, htable⟩ := ih (c.reference m).1
    have hkeeps := c.reference_keeps m
    exact ⟨hassemblies.trans hkeeps.1, htable.trans hkeeps.2⟩

/-- The first use of a compiler changes which modules it may call, and nothing else of it. -/
theorem bootstrap_keeps (c : Context) :
    c.bootstrap.1.compiler.assemblies = c.compiler.assemblies ∧
      c.bootstrap.1.compiler.table = c.compiler.table := by
  unfold bootstrap
  split
  · exact ⟨rfl, rfl⟩
  · exact referenceAll_keeps c.compiler c.modules

theorem bootstrap_takeMarkers (c : Context) (n : Nat) :
    ({ c with nextMarker := n } : Context).bootstrap =
      ({ c.bootstrap.1 with nextMarker := n }, c.bootstrap.2) := by
  unfold bootstrap
  split <;> rfl

/-- Only the first use of a context prepares the compiler. -/
theorem bootstrap_of_bootstrapped {c : Context} (h : c.bootstrapped = true) : c.bootstrap = (c, []) := by
  unfold bootstrap
  exact if_pos h

theorem bootstrapped_bootstrap (c : Context) : c.bootstrap.1.bootstrapped = true := by
  unfold bootstrap
  split
  · assumption
  · rfl

/-! ## Section 2 - one extraction -/

/-- The text that is compiled for a source. -/
def marked (c : Context) (source : String) : String := source ++ markerDeclaration (markerName c.nextMarker)

/-- The context of an extraction once its compile has left a compiler behind. -/
def compiled (c : Context) (k : Compiler) : Context :=
  { c.bootstrap.1 with nextMarker := c.nextMarker + 1, compiler := k }

theorem compile_marked (c : Context) (source : String) {k : Compiler} {report : CompileReport}
    (h : c.bootstrap.1.compiler.compile (c.marked source) = (k, report)) :
    ({ c with nextMarker := c.nextMarker + 1 } : Context).compile (c.marked source) =
      { context := c.compiled k
        value := if report.success then .ok report.diagnostics else .error (.compile report.diagnostics)
        log := c.bootstrap.2 ++ report.diagnostics.logLines c.bootstrap.1.logWarnings } := by
  unfold compile
  rw [bootstrap_takeMarkers]
  dsimp only
  rw [h]
  rfl

theorem evaluate_compiled (c : Context) (k : Compiler) (expression : String) :
    (c.compiled k).evaluate expression =
      { context := c.compiled k
        value := (k.evaluate expression).1
        printed := (k.evaluate expression).2 } := by
  have hprepared : (c.compiled k).bootstrapped = true := c.bootstrapped_bootstrap
  unfold evaluate
  rw [bootstrap_of_bootstrapped hprepared]
  rfl

/-- An extraction changes the context as the compile of its source and marker does. -/
theorem context_extract (c : Context) (source : String) :
    (c.extract source).context = c.compiled (c.bootstrap.1.compiler.compile (c.marked source)).1 := by
  rcases hk : c.bootstrap.1.compiler.compile (c.marked source) with ⟨k, success, report⟩
  have hcompile := c.compile_marked source hk
  unfold marked at hcompile
  unfold extract
  dsimp only
  rw [hcompile]
  cases success with
  | false => rfl
  | true =>
    dsimp only [if_true]
    rw [evaluate_compiled]
    rfl

theorem compiler_extract (c : Context) (source : String) :
    (c.extract source).context.compiler = (c.bootstrap.1.compiler.compile (c.marked source)).1 := by
  rw [context_extract]
  rfl

/-- A source that does not compile together with its marker gives the report of that compile. -/
theorem value_extract_of_failed {c : Context} {source : String} {k : Compiler} {report : Report}
    (h : c.bootstrap.1.compiler.compile (c.marked source) = (k, ⟨false, report⟩)) :
    (c.extract source).value = .error (.compile report) := by
  have hcompile := c.compile_marked source h
  unfold marked at hcompile
  unfold extract
  dsimp only
  rw [hcompile]
  rfl

/-- A source that does gives what is picked from the assembly that the marker is found in. -/
theorem value_extract_of_compiled {c : Context} {source : String} {k : Compiler} {report : Report}
    {ref : TypeRef} (h : c.bootstrap.1.compiler.compile (c.marked source) = (k, ⟨true, report⟩))
    (hlookup : k.evaluate (markerLookup (markerName c.nextMarker)) = (.ok (.typeRef ref), [])) :
    (c.extract source).value =
      (pick ref.assembly (markerName c.nextMarker)).map (⟨·, markerName c.nextMarker, report⟩) := by
  have hcompile := c.compile_marked source h
  unfold marked at hcompile
  unfold extract
  dsimp only
  rw [hcompile]
  dsimp only [if_true]
  rw [evaluate_compiled, hlookup]
  show (pick ref.assembly (markerName c.nextMarker) >>= fun behaviour => _) = _
  cases pick ref.assembly (markerName c.nextMarker) <;> rfl

theorem Reachable.keeps {c : Context} (h : c.Reachable) : c.compiler.Keeps := by
  have hprepared : ∀ {c : Context}, c.compiler.Keeps → c.bootstrap.1.compiler.Keeps := fun h =>
    Compiler.keeps_of_eq h (bootstrap_keeps _).1
  induction h with
  | start hcompiler _ => exact hcompiler.keeps
  | addModule m _ ih =>
    unfold Context.addModule
    split
    · exact ih
    · dsimp only
      split
      · exact Compiler.keeps_perform ih (.reference m)
      · exact ih
  | offer _ _ ih => exact ih
  | setLogWarnings _ _ ih => exact ih
  | takeMarkers _ _ ih => exact ih
  | compile unit _ ih => exact Compiler.keeps_perform (hprepared ih) (.compile unit)
  | evaluate _ _ ih => exact hprepared ih
  | extract source _ ih =>
    rw [compiler_extract]
    exact Compiler.keeps_perform (hprepared ih) (.compile _)

/-- A compiler of a context that has come about by use bears its numbers. -/
theorem Reachable.numbered {c : Context} (h : c.Reachable) : c.compiler.Numbered := h.keeps.numbered

end Context

/-! ## Section 3 - the marker -/

theorem toList_markerName (n : Nat) : (markerName n).toList = "ReloadMarker_".toList ++ Nat.toDigits 10 n := by
  simp [markerName, toString]

/-- A marker has a name that a type can have. -/
theorem isName_marker (n : Nat) : IsName (markerName n).toList := by
  rw [toList_markerName]
  refine ⟨⟨'R', _, rfl, by decide⟩, ?_⟩
  intro c hc
  rcases List.mem_append.1 hc with hc | hc
  · have hprefix : "ReloadMarker_".toList.all isIdentPart = true := by decide
    exact List.all_eq_true.1 hprefix c hc
  · have hdigit : c.isDigit = true := Nat.isDigit_of_mem_toDigits (by decide) (by decide) hc
    simp [isIdentPart, Char.isAlphanum, hdigit]

theorem toList_markerDeclaration (marker : String) :
    (markerDeclaration marker).toList = '\n' :: emptyClass marker.toList := by
  show ("\nclass " ++ marker ++ " {}\n" : String).toList = _
  rw [String.toList_append, String.toList_append, List.append_assoc]
  rfl

theorem toList_markerLookup (marker : String) :
    (markerLookup marker).toList = Body.typeRefCall marker.toList := by
  rw [markerLookup, String.toList_append, String.toList_append, List.append_assoc]
  rfl

/-- A marker that is looked up gives the type that its name stands for. -/
theorem evaluate_markerLookup {k : Compiler} (h : k.Reflects) {marker : String} (hmarker : IsName marker.toList)
    {ref : TypeRef} (href : k.lookup marker = some ref) :
    k.evaluate (markerLookup marker) = (.ok (.typeRef ref), []) := by
  refine Compiler.evaluate_typeRefCall h hmarker.part ?_ (toList_markerLookup marker)
  rw [String.ofList_toList]
  exact href

/-- An empty body is a program. -/
theorem parse_empty : Body.Program.parse "" = .ok ⟨[], []⟩ := by
  have hwords : Body.Lexer.words "" = [⟨.eof, .start⟩] := Body.wordsFrom_end true .start
  rw [Body.Program.parse, hwords]
  rfl

/-! ## Section 4 - which sources are rejected -/

/-- Whether a source is to be rejected, told from its text alone. -/
def Rejects (source marker : String) : Prop :=
  (∃ fault, scan source = .error fault) ∨
    ∃ ds, scan source = .ok ds ∧
      (¬ (ds.map Declaration.name).Nodup ∨ marker ∈ ds.map Declaration.name ∨
        ∃ d ∈ ds, ∃ fault, Body.Program.parse d.body = .error fault)

theorem not_rejects_iff {source marker : String} : ¬ Rejects source marker ↔
    ∃ ds, scan source = .ok ds ∧ WellFormed ds ∧ marker ∉ ds.map Declaration.name := by
  constructor
  · intro h
    rcases hscan : scan source with fault | ds
    · exact absurd (.inl ⟨fault, hscan⟩) h
    · refine ⟨ds, rfl, ⟨?_, ?_⟩, ?_⟩
      · by_contra hnames
        exact h (.inr ⟨ds, hscan, .inl hnames⟩)
      · intro d hd
        rcases hparse : Body.Program.parse d.body with fault | program
        · exact absurd (.inr ⟨ds, hscan, .inr (.inr ⟨d, hd, fault, hparse⟩)⟩) h
        · exact ⟨program, rfl⟩
      · intro hmem
        exact h (.inr ⟨ds, hscan, .inr (.inl hmem)⟩)
  · rintro ⟨ds, hscan, hwell, hmarker⟩ (⟨fault, hfault⟩ | ⟨ds', hscan', hbad⟩)
    · rw [hscan] at hfault
      cases hfault
    · rw [hscan] at hscan'
      cases hscan'
      rcases hbad with hnames | hmem | ⟨d, hd, fault, hfault⟩
      · exact hnames hwell.names
      · exact hmarker hmem
      · obtain ⟨program, hparse⟩ := hwell.bodies d hd
        rw [hfault] at hparse
        cases hparse

theorem wellFormed_snoc {ds : List Declaration} {d : Declaration} :
    WellFormed (ds ++ [d]) ↔ WellFormed ds ∧ d.name ∉ ds.map Declaration.name ∧
      ∃ program, Body.Program.parse d.body = .ok program := by
  have hnodup : ((ds ++ [d]).map Declaration.name).Nodup ↔
      (ds.map Declaration.name).Nodup ∧ d.name ∉ ds.map Declaration.name := by
    rw [(List.perm_append_singleton d ds).map Declaration.name |>.nodup_iff, List.map_cons, List.nodup_cons]
    exact and_comm
  constructor
  · rintro ⟨hnames, hbodies⟩
    obtain ⟨hnames, hfresh⟩ := hnodup.1 hnames
    exact ⟨⟨hnames, fun x hx => hbodies x (List.mem_append_left _ hx)⟩, hfresh, hbodies d (by simp)⟩
  · rintro ⟨⟨hnames, hbodies⟩, hfresh, hparse⟩
    refine ⟨hnodup.2 ⟨hnames, hfresh⟩, ?_⟩
    intro x hx
    rcases List.mem_append.1 hx with hx | hx
    · exact hbodies x hx
    · rw [List.mem_singleton.1 hx]
      exact hparse

/-- The scan of a source and its marker. -/
theorem scan_marked (source : String) {marker : String} (hmarker : IsName marker.toList) :
    (∀ ds, scan source = .ok ds → ∃ d, scan (source ++ markerDeclaration marker) = .ok (ds ++ [d]) ∧
      d.name = marker ∧ ∃ program, Body.Program.parse d.body = .ok program) ∧
    (∀ fault, scan source = .error fault →
      ∃ fault', scan (source ++ markerDeclaration marker) = .error fault') := by
  obtain ⟨hok, herror⟩ := scan_append source hmarker (toList_markerDeclaration marker)
  refine ⟨fun ds h => ?_, herror⟩
  obtain ⟨d, hscan, hd⟩ := hok ds h
  refine ⟨d, hscan, ?_, ⟨⟨[], []⟩, ?_⟩⟩
  · rw [hd.name, String.ofList_toList]
  · rw [hd.body, parse_empty]

/-- A source is rejected exactly if it does not compile together with its marker. -/
theorem rejects_iff {source marker : String} (hmarker : IsName marker.toList) :
    Rejects source marker ↔ ¬ Compiler.Compiles (source ++ markerDeclaration marker) := by
  obtain ⟨hok, herror⟩ := scan_marked source hmarker
  rw [← not_iff_not, not_not, not_rejects_iff]
  constructor
  · rintro ⟨ds, hscan, hwell, hfresh⟩
    obtain ⟨d, hmarked, hname, hbody⟩ := hok ds hscan
    exact ⟨_, hmarked, wellFormed_snoc.2 ⟨hwell, hname ▸ hfresh, hbody⟩⟩
  · rintro ⟨ds', hmarked, hwell⟩
    rcases hscan : scan source with fault | ds
    · obtain ⟨fault', hfault⟩ := herror fault hscan
      rw [hmarked] at hfault
      cases hfault
    · obtain ⟨d, hmarked', hname, -⟩ := hok ds hscan
      rw [hmarked] at hmarked'
      cases hmarked'
      obtain ⟨hds, hfresh, -⟩ := wellFormed_snoc.1 hwell
      exact ⟨ds, rfl, hds, hname ▸ hfresh⟩

/-! ## Section 5 - what is extracted -/

/-- Between the wrapper and the marker stand the candidates. -/
theorem candidates_marked {n : Nat} {types : List BehaviourType} {t : BehaviourType} {marker : String}
    (ht : t.name = marker) (htypes : ∀ x ∈ types, x.name ≠ wrapperName ∧ x.name ≠ marker) :
    candidates ⟨n, .wrapper n :: (types ++ [t])⟩ marker = types := by
  unfold candidates
  have hall : types.filter (fun x => decide (x.name ≠ wrapperName ∧ x.name ≠ marker)) = types :=
    List.filter_eq_self.2 fun x hx => by simpa using htypes x hx
  rw [List.filter_cons_of_neg (by simp [BehaviourType.wrapper]), List.filter_append, hall,
    List.filter_cons_of_neg (by simp [ht]), List.filter_nil, List.append_nil]

/-- What a source with the given declarations gives, where an assembly holds what they compile to. -/
def Yields (marker : String) (assembly : Assembly) (value : Except ScriptError Extracted) :
    List Declaration → Prop
  | [] => value = .error .noBehaviour
  | [d] => ∃ t report, value = .ok ⟨t, marker, report⟩ ∧ t ∈ assembly.types ∧ CompilesTo assembly.id d t
  | ds => value = .error (.ambiguous (ds.map Declaration.name))

/-- What an extraction has to do, told from the source and its marker. -/
structure Context.ExtractsExactly (c : Context) (source : String) : Prop where
  /-- The source fails to compile exactly if it is to be rejected. -/
  fails : (∃ report, (c.extract source).value = .error (.compile report)) ↔
    Rejects source (markerName c.nextMarker)
  /-- A source that is rejected changes neither the assemblies nor what the names stand for. -/
  untouched : Rejects source (markerName c.nextMarker) →
    (c.extract source).context.compiler.assemblies = c.compiler.assemblies ∧
      (c.extract source).context.compiler.table = c.compiler.table
  /-- Any other source emits one assembly, and its declarations decide what is found in it. -/
  yields : ¬ Rejects source (markerName c.nextMarker) →
    ∃ ds assembly, scan source = .ok ds ∧ assembly.id = c.compiler.nextAssembly ∧
      (c.extract source).context.compiler.assemblies = c.compiler.assemblies ++ [assembly] ∧
      Yields (markerName c.nextMarker) assembly (c.extract source).value ds
  /-- What is found is no wrapper, no marker, and nothing that was compiled before. -/
  own : ∀ found, (c.extract source).value = .ok found →
    found.behaviour.isWrapper = false ∧ found.behaviour.name ≠ markerName c.nextMarker ∧
      ∀ a ∈ c.compiler.assemblies, found.behaviour ∉ a.types
  resolves : ∀ marker reason, (c.extract source).value ≠ .error (.markerUnresolved marker reason)

/-- How a source with some declarations comes to its value: it compiles to types, an assembly holds them
    besides the wrapper and the marker, and the value is picked from that assembly. -/
structure Context.Emits (c : Context) (source : String) (ds : List Declaration) (types : List BehaviourType)
    (assembly : Assembly) (report : Report) : Prop where
  scanned : scan source = .ok ds
  number : assembly.id = c.compiler.nextAssembly
  grown : (c.extract source).context.compiler.assemblies = c.compiler.assemblies ++ [assembly]
  compiled : List.Forall₂ (CompilesTo assembly.id) ds types
  held : ∀ t ∈ types, t ∈ assembly.types
  candidates : candidates assembly (markerName c.nextMarker) = types
  picked : (c.extract source).value =
    (pick assembly (markerName c.nextMarker)).map (⟨·, markerName c.nextMarker, report⟩)

theorem emits_of_not_rejects {c : Context} (hreflects : c.bootstrap.1.compiler.Reflects) {source : String}
    (h : ¬ Rejects source (markerName c.nextMarker)) :
    ∃ ds types assembly report, c.Emits source ds types assembly report := by
  have hmarker : IsName (markerName c.nextMarker).toList := isName_marker c.nextMarker
  obtain ⟨ds, hscan, hwell, hfresh⟩ := not_rejects_iff.1 h
  obtain ⟨last, hmarked, hname, hbody⟩ := (scan_marked source hmarker).1 ds hscan
  have hunit : WellFormed (ds ++ [last]) := wellFormed_snoc.2 ⟨hwell, hname ▸ hfresh, hbody⟩
  obtain ⟨report, types', hcompile, htypes'⟩ :=
    Compiler.compile_of_wellFormed (c := c.bootstrap.1.compiler) hmarked hunit
  obtain ⟨types, t, rfl, htypes, ht⟩ := forall₂_snoc htypes'
  have hnext : c.bootstrap.1.compiler.nextAssembly = c.compiler.nextAssembly := by
    rw [Compiler.nextAssembly, c.bootstrap_keeps.1]
    rfl
  have htname : t.name = markerName c.nextMarker := ht.name.trans hname
  -- The marker was declared last, so its name stands for it, whatever it stood for before.
  have hlookup :
      (c.bootstrap.1.compiler.emit (types ++ [t])).evaluate (markerLookup (markerName c.nextMarker)) =
      (.ok (.typeRef ⟨t, ⟨c.bootstrap.1.compiler.nextAssembly,
        .wrapper c.bootstrap.1.compiler.nextAssembly :: (types ++ [t])⟩⟩), []) := by
    have hemit : (c.bootstrap.1.compiler.emit (types ++ [t])).Reflects := fun m hm => hreflects m hm
    refine evaluate_markerLookup hemit hmarker ?_
    rw [← htname]
    exact Compiler.lookup_emit_last _ types t
  refine ⟨ds, types, ⟨c.bootstrap.1.compiler.nextAssembly, _⟩, report, hscan, hnext, ?_, htypes, ?_, ?_,
    Context.value_extract_of_compiled hcompile hlookup⟩
  · rw [Context.compiler_extract, Context.marked, hcompile, ← c.bootstrap_keeps.1]
    rfl
  · intro x hx
    exact List.mem_cons_of_mem _ (List.mem_append_left _ hx)
  · refine candidates_marked htname ?_
    intro x hx
    have hmem : x.name ∈ ds.map Declaration.name := by
      rw [← names_of_compilesTo htypes]
      exact List.mem_map_of_mem hx
    obtain ⟨d, hd, hdx⟩ := List.mem_map.1 hmem
    exact ⟨hdx ▸ name_ne_wrapperName hscan d hd, fun heq => hfresh (heq ▸ hmem)⟩

/-- A pick depends on how many candidates there are. -/
theorem Context.Emits.yields {c : Context} {source : String} {ds : List Declaration}
    {types : List BehaviourType} {assembly : Assembly} {report : Report}
    (h : c.Emits source ds types assembly report) :
    Yields (markerName c.nextMarker) assembly (c.extract source).value ds := by
  rw [h.picked, pick, h.candidates]
  cases h.compiled with
  | nil => rfl
  | cons hd htail =>
    cases htail with
    | nil => exact ⟨_, report, rfl, h.held _ (by simp), hd⟩
    | cons hd' htail =>
      show Except.error (ScriptError.ambiguous _) = Except.error (ScriptError.ambiguous _)
      rw [names_of_compilesTo (.cons hd (.cons hd' htail))]

/-- What is picked is a candidate. -/
theorem mem_of_pick {assembly : Assembly} {marker : String} {t : BehaviourType}
    (h : pick assembly marker = .ok t) : t ∈ candidates assembly marker := by
  unfold pick at h
  split at h
  · cases h
  · rename_i x hx
    cases h
    rw [hx]
    exact List.mem_singleton_self t
  · cases h

/-- A pick fails for the number of candidates alone. -/
theorem error_of_pick {assembly : Assembly} {marker : String} {error : ScriptError}
    (h : pick assembly marker = .error error) : error = .noBehaviour ∨ ∃ names, error = .ambiguous names := by
  unfold pick at h
  split at h
  · cases h
    exact .inl rfl
  · cases h
  · cases h
    exact .inr ⟨_, rfl⟩

/-- What is found in an assembly was compiled into it, and so into none before. -/
theorem Context.Emits.own {c : Context} (hc : c.Reachable) {source : String} {ds : List Declaration}
    {types : List BehaviourType} {assembly : Assembly} {report : Report}
    (h : c.Emits source ds types assembly report) {t : BehaviourType}
    (hpick : pick assembly (markerName c.nextMarker) = .ok t) :
    t.isWrapper = false ∧ t.name ≠ markerName c.nextMarker ∧ ∀ a ∈ c.compiler.assemblies, t ∉ a.types := by
  have hcandidate := mem_of_pick hpick
  obtain ⟨-, hname⟩ := List.mem_filter.1 hcandidate
  obtain ⟨hwrapper, hmarker⟩ : t.name ≠ wrapperName ∧ t.name ≠ markerName c.nextMarker := by simpa using hname
  refine ⟨by simpa [BehaviourType.isWrapper] using hwrapper, hmarker, ?_⟩
  intro a ha ht
  -- The numbers of earlier assemblies are smaller than that of this one.
  have hearlier : t.assembly = a.id := hc.numbered.types a ha t ht
  have hnow : t.assembly = assembly.id :=
    Compiler.assembly_of_compilesTo h.compiled t (h.candidates ▸ hcandidate)
  have hle : a.id ≤ c.compiler.assemblies.length := hc.numbered.ids a ha
  have hnumber : assembly.id = c.compiler.assemblies.length + 1 := h.number
  omega

/-- An extraction finds what the source declares, whatever has been compiled before. -/
theorem extract_exact {c : Context} (hc : c.Reachable) (hreflects : c.bootstrap.1.compiler.Reflects)
    (source : String) : c.ExtractsExactly source := by
  by_cases h : Rejects source (markerName c.nextMarker)
  · -- The marked source does not compile, so no type is looked for.
    obtain ⟨report, hcompile⟩ := Compiler.compile_of_not_compiles (c := c.bootstrap.1.compiler)
      ((rejects_iff (isName_marker c.nextMarker)).1 h)
    have hvalue : (c.extract source).value = .error (.compile report) :=
      Context.value_extract_of_failed hcompile
    constructor
    · exact ⟨fun _ => h, fun _ => ⟨report, hvalue⟩⟩
    · intro _
      rw [Context.compiler_extract, Context.marked, hcompile]
      exact c.bootstrap_keeps
    · exact fun hnot => absurd h hnot
    · intro found hfound
      rw [hvalue] at hfound
      cases hfound
    · intro marker reason hunresolved
      rw [hvalue] at hunresolved
      cases hunresolved
  · -- It compiles, and what may fail then is the picking of the type.
    obtain ⟨ds, types, assembly, report, hemits⟩ := emits_of_not_rejects hreflects h
    have herror : ∀ error, (c.extract source).value = .error error →
        error = .noBehaviour ∨ ∃ names, error = .ambiguous names := by
      intro error herror
      rw [hemits.picked] at herror
      rcases hpick : pick assembly (markerName c.nextMarker) with error' | t
      · rw [hpick] at herror
        cases herror
        exact error_of_pick hpick
      · rw [hpick] at herror
        cases herror
    constructor
    · refine ⟨?_, fun hrejects => absurd hrejects h⟩
      rintro ⟨report', hreport⟩
      rcases herror _ hreport with hnone | ⟨names, hmany⟩
      · cases hnone
      · cases hmany
    · exact fun hrejects => absurd hrejects h
    · exact fun _ => ⟨ds, assembly, hemits.scanned, hemits.number, hemits.grown, hemits.yields⟩
    · intro found hfound
      rw [hemits.picked] at hfound
      rcases hpick : pick assembly (markerName c.nextMarker) with error | t
      · rw [hpick] at hfound
        cases hfound
      · rw [hpick] at hfound
        cases hfound
        exact hemits.own hc hpick
    · intro marker reason hunresolved
      rcases herror _ hunresolved with hnone | ⟨names, hmany⟩
      · cases hnone
      · cases hmany

/-- A context whose compiler knows a type that is named like the next marker. -/
def namesakeContext : Context := ((Context.offering []).compile "class ReloadMarker_1 {}").context

/-- A type of the marker's name from an earlier compile is not taken for the marker. -/
theorem extract_after_namesake :
    namesakeContext.Reachable ∧ namesakeContext.bootstrap.1.compiler.Reflects ∧
      (namesakeContext.compiler.lookup (markerName namesakeContext.nextMarker)).isSome = true ∧
      namesakeContext.ExtractsExactly "class Spin {}" := by
  have hreachable : namesakeContext.Reachable := .compile _ (.start .fresh [])
  have hreflects : namesakeContext.bootstrap.1.compiler.Reflects := by
    rw [Context.bootstrap_of_bootstrapped rfl]
    have hnone : (Context.offering []).bootstrap.1.compiler.Reflects := fun m hm => absurd hm List.not_mem_nil
    exact Compiler.reflects_compile hnone _
  exact ⟨hreachable, hreflects, by decide +kernel, extract_exact hreachable hreflects "class Spin {}"⟩

end HotReload
