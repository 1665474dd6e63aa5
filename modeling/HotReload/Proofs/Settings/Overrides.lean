import HotReload.Proofs.Settings.Counts

/-! # Command lines as overrides

    A command line is a list of pairs, and to read it is to read one pair after the other.
    What a pair does depends on nothing before it: its value takes the place of an earlier
    one, or the pair makes no sense, and then the line makes none.

    So command lines can be put behind each other.  To override settings by the whole is to
    override them by the one and then by the other, and of several values for one flag the
    last counts. -/

namespace HotReload

/-! ## Section 1 - pairs -/

/-- Arguments by twos.  The last may lack its value. -/
def pairs : List String → List (String × Option String)
  | [] => []
  | [flag] => [(flag, none)]
  | flag :: value :: rest => (flag, some value) :: pairs rest

/-- Arguments behind complete pairs begin with a pair of their own. -/
theorem pairs_append {a : List String} (h : ∀ p ∈ pairs a, p.2 ≠ none) (b : List String) :
    pairs (a ++ b) = pairs a ++ pairs b := by
  fun_induction pairs a with
  | case1 => rfl
  | case2 flag => exact absurd rfl (h _ List.mem_cons_self)
  | case3 flag value rest ih =>
    rw [List.cons_append, List.cons_append, pairs, ih fun p hp => h p (List.mem_cons_of_mem _ hp), List.cons_append]

/-- A text stands for a switch. -/
def Switches (s : String) (b : Bool) : Prop :=
  s.toLower ∈ if b then ["1", "true", "on", "yes"] else ["0", "false", "off", "no"]

/-- A pair makes no sense, for a reason. -/
inductive CommandFault.Of : String × Option String → CommandFault → Prop where
  | notAFlag {flag : String} {value : Option String} (form : ¬ "--".toList <+: flag.toList) :
      CommandFault.Of (flag, value) (.notAFlag flag)
  | missingValue {flag : String} (form : "--".toList <+: flag.toList) :
      CommandFault.Of (flag, none) (.missingValue flag)
  | unknownFlag {flag value : String} (form : "--".toList <+: flag.toList)
      (unknown : flag ∉ ["--config", "--script-root", "--ticks", "--log-warnings", "--hot-reload"]) :
      CommandFault.Of (flag, some value) (.unknownFlag flag)
  | badTicks {value : String} {reason : NumberFault} (bad : reason.Of value) :
      CommandFault.Of ("--ticks", some value) (.badTicks value reason)
  | badLogWarnings {value : String} (bad : ∀ b, ¬ Switches value b) :
      CommandFault.Of ("--log-warnings", some value) (.badSwitch "log-warnings" value.toLower)
  | badHotReload {value : String} (bad : ∀ b, ¬ Switches value b) :
      CommandFault.Of ("--hot-reload", some value) (.badSwitch "hot-reload" value.toLower)

namespace Invocation

/-- What a pair sets that makes sense. -/
inductive Sets : String × Option String → (Invocation → Invocation) → Prop where
  | config (value : String) : Sets ("--config", some value) fun i => { i with config := some ⟨value⟩ }
  | scriptRoot (value : String) :
      Sets ("--script-root", some value) fun i => { i with overrides := { i.overrides with scriptRoot := some ⟨value⟩ } }
  | ticks {value : String} {n : Nat} (h : Counts value n) :
      Sets ("--ticks", some value) fun i => { i with overrides := { i.overrides with ticks := some n } }
  | logWarnings {value : String} {b : Bool} (h : Switches value b) :
      Sets ("--log-warnings", some value) fun i => { i with overrides := { i.overrides with logWarnings := some b } }
  | hotReload {value : String} {b : Bool} (h : Switches value b) :
      Sets ("--hot-reload", some value) fun i => { i with overrides := { i.overrides with hotReload := some b } }

/-! ## Section 2 - reading one pair -/

/-- Takes in one pair, whether it is complete or not. -/
def enter (i : Invocation) : String × Option String → Except CommandFault Invocation
  | (flag, some value) => if isFlag flag then i.take flag value else .error (.notAFlag flag)
  | (flag, none) => .error (if isFlag flag then .missingValue flag else .notAFlag flag)

theorem isFlag_iff {flag : String} : isFlag flag = true ↔ "--".toList <+: flag.toList :=
  List.isPrefixOf_iff_prefix

theorem switchOf_of_switches {value : String} {b : Bool} (h : Switches value b) (name : String) :
    switchOf name value = .ok b := by
  unfold Switches at h
  unfold switchOf readSwitch
  generalize value.toLower = lower at h ⊢
  cases b with
  | true =>
    have hmem : lower ∈ ["1", "true", "on", "yes"] := h
    simp only [if_pos hmem]
  | false =>
    have hmem : lower ∈ ["0", "false", "off", "no"] := h
    have hnot : lower ∉ ["1", "true", "on", "yes"] := by
      intro hother
      simp only [List.mem_cons, List.not_mem_nil, or_false] at hmem hother
      rcases hmem with rfl | rfl | rfl | rfl <;> simp at hother
    simp only [if_neg hnot, if_pos hmem]

theorem switchOf_of_not_switches {value : String} (h : ∀ b, ¬ Switches value b) (name : String) :
    switchOf name value = .error (.badSwitch name value.toLower) := by
  have htrue : value.toLower ∉ ["1", "true", "on", "yes"] := h true
  have hfalse : value.toLower ∉ ["0", "false", "off", "no"] := h false
  unfold switchOf readSwitch
  simp only [if_neg htrue, if_neg hfalse]

theorem take_of_unknown {flag : String}
    (h : flag ∉ ["--config", "--script-root", "--ticks", "--log-warnings", "--hot-reload"]) (i : Invocation)
    (value : String) : i.take flag value = .error (.unknownFlag flag) := by
  simp only [List.mem_cons, List.not_mem_nil, or_false, not_or] at h
  obtain ⟨hconfig, hroot, hticks, hlog, hreload⟩ := h
  unfold take
  split
  · exact absurd rfl hconfig
  · exact absurd rfl hroot
  · exact absurd rfl hticks
  · exact absurd rfl hlog
  · exact absurd rfl hreload
  · rfl

theorem enter_of_sets {p : String × Option String} {f : Invocation → Invocation} (h : Sets p f) (i : Invocation) :
    i.enter p = .ok (f i) := by
  cases h with
  | config value => rfl
  | scriptRoot value => rfl
  | ticks hn =>
    show i.take "--ticks" _ = _
    simp only [take, readCount_eq_ok_iff.2 hn]
  | logWarnings hb =>
    show (switchOf "log-warnings" _).map _ = _
    rw [switchOf_of_switches hb]
    rfl
  | hotReload hb =>
    show (switchOf "hot-reload" _).map _ = _
    rw [switchOf_of_switches hb]
    rfl

theorem enter_of_fault {p : String × Option String} {fault : CommandFault} (h : CommandFault.Of p fault)
    (i : Invocation) : i.enter p = .error fault := by
  cases h with
  | @notAFlag flag value hform =>
    rw [← isFlag_iff] at hform
    cases value <;> simp only [enter, if_neg hform]
  | missingValue hform =>
    simp only [enter, if_pos (isFlag_iff.2 hform)]
  | unknownFlag hform hunknown =>
    simp only [enter, if_pos (isFlag_iff.2 hform), take_of_unknown hunknown]
  | badTicks hbad =>
    show i.take "--ticks" _ = _
    simp only [take, readCount_eq_error_iff.2 hbad]
  | badLogWarnings hbad =>
    show (switchOf "log-warnings" _).map _ = _
    rw [switchOf_of_not_switches hbad]
    rfl
  | badHotReload hbad =>
    show (switchOf "hot-reload" _).map _ = _
    rw [switchOf_of_not_switches hbad]
    rfl

/-- Every pair sets something or makes no sense. -/
theorem sets_or_fault (p : String × Option String) : (∃ f, Sets p f) ∨ ∃ fault, CommandFault.Of p fault := by
  obtain ⟨flag, value⟩ := p
  by_cases hform : "--".toList <+: flag.toList
  · cases value with
    | none => exact .inr ⟨_, .missingValue hform⟩
    | some value =>
      by_cases hknown : flag ∈ ["--config", "--script-root", "--ticks", "--log-warnings", "--hot-reload"]
      · simp only [List.mem_cons, List.not_mem_nil, or_false] at hknown
        rcases hknown with rfl | rfl | rfl | rfl | rfl
        · exact .inl ⟨_, .config value⟩
        · exact .inl ⟨_, .scriptRoot value⟩
        · cases hread : readCount value with
          | ok n => exact .inl ⟨_, .ticks (readCount_eq_ok_iff.1 hread)⟩
          | error reason => exact .inr ⟨_, .badTicks (readCount_eq_error_iff.1 hread)⟩
        · by_cases hswitch : ∃ b, Switches value b
          · obtain ⟨b, hb⟩ := hswitch
            exact .inl ⟨_, .logWarnings hb⟩
          · exact .inr ⟨_, .badLogWarnings (not_exists.1 hswitch)⟩
        · by_cases hswitch : ∃ b, Switches value b
          · obtain ⟨b, hb⟩ := hswitch
            exact .inl ⟨_, .hotReload hb⟩
          · exact .inr ⟨_, .badHotReload (not_exists.1 hswitch)⟩
      · exact .inr ⟨_, .unknownFlag hform hknown⟩
  · exact .inr ⟨_, .notAFlag hform⟩

theorem Sets.not_fault {p : String × Option String} {f : Invocation → Invocation} (h : Sets p f)
    (fault : CommandFault) : ¬ CommandFault.Of p fault := by
  intro hfault
  have heq := (enter_of_sets h {}).symm.trans (enter_of_fault hfault {})
  cases heq

/-! ## Section 3 - reading all pairs -/

/-- To read arguments is to take in their pairs one after the other. -/
theorem takeAll_eq (i : Invocation) (arguments : List String) :
    i.takeAll arguments = (pairs arguments).foldlM enter i := by
  fun_induction takeAll i arguments with
  | case1 i => rfl
  | case2 i flag => rfl
  | case3 i flag value rest hflag j hj ih =>
    rw [pairs, List.foldlM_cons, enter, if_pos hflag, hj]
    exact ih
  | case4 i flag value rest hflag fault hfault =>
    rw [pairs, List.foldlM_cons, enter, if_pos hflag, hfault]
    rfl
  | case5 i flag value rest hflag =>
    rw [pairs, List.foldlM_cons, enter, if_neg hflag]
    rfl

theorem foldlM_cons_of_sets {p : String × Option String} {f : Invocation → Invocation} (h : Sets p f)
    (more : List (String × Option String)) (i : Invocation) :
    (p :: more).foldlM enter i = more.foldlM enter (f i) := by
  rw [List.foldlM_cons, enter_of_sets h]
  rfl

theorem foldlM_cons_of_fault {p : String × Option String} {fault : CommandFault} (h : CommandFault.Of p fault)
    (more : List (String × Option String)) (i : Invocation) : (p :: more).foldlM enter i = .error fault := by
  rw [List.foldlM_cons, enter_of_fault h]
  rfl

/-- Pairs that make sense can be taken in, and only they can. -/
theorem foldlM_isOk_iff (ps : List (String × Option String)) (i : Invocation) :
    (∃ j, ps.foldlM enter i = .ok j) ↔ ∀ p ∈ ps, ∃ f, Sets p f := by
  induction ps generalizing i with
  | nil => exact ⟨fun _ p hp => absurd hp List.not_mem_nil, fun _ => ⟨i, rfl⟩⟩
  | cons p more ih =>
    rcases sets_or_fault p with ⟨f, hf⟩ | ⟨fault, hfault⟩
    · rw [foldlM_cons_of_sets hf, ih, List.forall_mem_cons]
      exact ⟨fun hmore => ⟨⟨f, hf⟩, hmore⟩, fun h => h.2⟩
    · rw [foldlM_cons_of_fault hfault, List.forall_mem_cons]
      constructor
      · rintro ⟨j, hj⟩
        cases hj
      · rintro ⟨⟨f, hf⟩, -⟩
        exact absurd hfault (hf.not_fault fault)

/-- The first of some pairs that makes no sense does so for a reason. -/
def FirstFault (ps : List (String × Option String)) (fault : CommandFault) : Prop :=
  ∃ front p rest, ps = front ++ p :: rest ∧ (∀ q ∈ front, ∀ f, ¬ CommandFault.Of q f) ∧ CommandFault.Of p fault

theorem firstFault_cons_of_sets {p : String × Option String} {f : Invocation → Invocation} (h : Sets p f)
    {more : List (String × Option String)} {fault : CommandFault} :
    FirstFault (p :: more) fault ↔ FirstFault more fault := by
  constructor
  · rintro ⟨front, q, rest, hsplit, hfront, hq⟩
    cases front with
    | nil =>
      cases hsplit
      exact absurd hq (h.not_fault fault)
    | cons q' front =>
      cases hsplit
      exact ⟨front, q, rest, rfl, fun r hr => hfront r (List.mem_cons_of_mem _ hr), hq⟩
  · rintro ⟨front, q, rest, rfl, hfront, hq⟩
    refine ⟨p :: front, q, rest, rfl, ?_, hq⟩
    intro r hr
    rcases List.mem_cons.1 hr with rfl | hr
    · exact h.not_fault
    · exact hfront r hr

/-- What is wrong with some pairs is what is wrong with the first of them that makes no sense. -/
theorem foldlM_eq_error_iff (ps : List (String × Option String)) (i : Invocation) (fault : CommandFault) :
    ps.foldlM enter i = .error fault ↔ FirstFault ps fault := by
  induction ps generalizing i with
  | nil =>
    constructor
    · intro h
      cases h
    · rintro ⟨front, p, rest, hsplit, -⟩
      cases front <;> cases hsplit
  | cons p more ih =>
    rcases sets_or_fault p with ⟨f, hf⟩ | ⟨fault', hfault'⟩
    · rw [foldlM_cons_of_sets hf, ih, firstFault_cons_of_sets hf]
    · rw [foldlM_cons_of_fault hfault']
      constructor
      · intro h
        cases h
        exact ⟨[], p, more, rfl, fun q hq => absurd hq List.not_mem_nil, hfault'⟩
      · rintro ⟨front, q, rest, hsplit, hfront, hq⟩
        cases front with
        | nil =>
          cases hsplit
          exact (foldlM_cons_of_fault hfault' [] {}).symm.trans (foldlM_cons_of_fault hq [] {})
        | cons q' front =>
          cases hsplit
          exact absurd hfault' (hfront p List.mem_cons_self fault')

/-! ## Section 4 - one line behind another -/

/-- What two command lines say together, the second after the first. -/
def followedBy (i j : Invocation) : Invocation where
  config := j.config.or i.config
  overrides :=
    { scriptRoot := j.overrides.scriptRoot.or i.overrides.scriptRoot
      ticks := j.overrides.ticks.or i.overrides.ticks
      logWarnings := j.overrides.logWarnings.or i.overrides.logWarnings
      hotReload := j.overrides.hotReload.or i.overrides.hotReload }

theorem followedBy_empty (i : Invocation) : i.followedBy {} = i := rfl

theorem Sets.followedBy {p : String × Option String} {f : Invocation → Invocation} (h : Sets p f)
    (i j : Invocation) : f (i.followedBy j) = i.followedBy (f j) := by
  cases h <;> rfl

theorem foldlM_followedBy (ps : List (String × Option String)) (i j : Invocation) :
    ps.foldlM enter (i.followedBy j) = (ps.foldlM enter j).map i.followedBy := by
  induction ps generalizing j with
  | nil => rfl
  | cons p more ih =>
    rcases sets_or_fault p with ⟨f, hf⟩ | ⟨fault, hfault⟩
    · rw [foldlM_cons_of_sets hf, foldlM_cons_of_sets hf, hf.followedBy, ih]
    · rw [foldlM_cons_of_fault hfault, foldlM_cons_of_fault hfault]
      rfl

/-- To read arguments behind others is to read them by themselves and to put what they say behind. -/
theorem takeAll_append {a b : List String} {i j : Invocation} (ha : takeAll {} a = .ok i)
    (hb : takeAll {} b = .ok j) : takeAll {} (a ++ b) = .ok (i.followedBy j) := by
  rw [takeAll_eq] at ha hb
  have hsets := (foldlM_isOk_iff (pairs a) {}).1 ⟨i, ha⟩
  have hcomplete : ∀ p ∈ pairs a, p.2 ≠ none := by
    intro p hp
    obtain ⟨f, hf⟩ := hsets p hp
    cases hf <;> simp
  rw [takeAll_eq, pairs_append hcomplete, List.foldlM_append, ha]
  show (pairs b).foldlM enter i = _
  rw [← i.followedBy_empty, foldlM_followedBy, hb]
  rfl

/-- Settings are overridden by the one and then by the other. -/
theorem override_followedBy (s : Settings) (i j : Invocation) :
    s.override (i.followedBy j).overrides = (s.override i.overrides).override j.overrides := by
  obtain ⟨-, root, ticks, logWarnings, hotReload⟩ := j
  cases root <;> cases ticks <;> cases logWarnings <;> cases hotReload <;> rfl

/-- To override settings a second time changes nothing. -/
theorem override_override (s : Settings) (o : Overrides) : (s.override o).override o = s.override o := by
  obtain ⟨root, ticks, logWarnings, hotReload⟩ := o
  cases root <;> cases ticks <;> cases logWarnings <;> cases hotReload <;> rfl

end Invocation

/-! ## Section 5 - the last value counts -/

/-- The values that are given for a flag, in their order. -/
def valuesOf (flag : String) (ps : List (String × Option String)) : List String :=
  ps.filterMap fun p => if p.1 = flag then p.2 else none

/-- What was `before` is `after` what the last of some values stands for, and it is the same if there is none. -/
def Replaced {α : Type} (reads : String → α → Prop) (before : α) (values : List String) (after : α) : Prop :=
  match values.getLast? with
  | none => after = before
  | some value => reads value after

theorem Replaced.trans {α : Type} {reads : String → α → Prop} {a b c : α} {values values' : List String}
    (h : Replaced reads a values b) (h' : Replaced reads b values' c) : Replaced reads a (values ++ values') c := by
  unfold Replaced at h h' ⊢
  rw [List.getLast?_append]
  cases hlast : values'.getLast? with
  | none =>
    rw [hlast] at h'
    rw [h', Option.none_or]
    exact h
  | some value =>
    rw [hlast] at h'
    exact h'

/-- What a text stands for may be given. -/
def Gives {α : Type} (reads : String → α → Prop) (value : String) (given : Option α) : Prop :=
  ∃ a, reads value a ∧ given = some a

theorem Replaced.getD {α : Type} {reads : String → α → Prop} {values : List String} {given : Option α}
    (h : Replaced (Gives reads) none values given) (before : α) : Replaced reads before values (given.getD before) := by
  unfold Replaced at h ⊢
  cases hlast : values.getLast? with
  | none =>
    rw [hlast] at h
    rw [h]
    rfl
  | some value =>
    rw [hlast] at h
    obtain ⟨a, ha, rfl⟩ := h
    exact ha

/-- A text stands for a path. -/
def IsPath (s : String) (p : Path) : Prop := p = ⟨s⟩

namespace Invocation

/-- What is said is what was said before, with the last values of some pairs in its place. -/
structure Updated (i : Invocation) (ps : List (String × Option String)) (j : Invocation) : Prop where
  config : Replaced (Gives IsPath) i.config (valuesOf "--config" ps) j.config
  scriptRoot : Replaced (Gives IsPath) i.overrides.scriptRoot (valuesOf "--script-root" ps) j.overrides.scriptRoot
  ticks : Replaced (Gives Counts) i.overrides.ticks (valuesOf "--ticks" ps) j.overrides.ticks
  logWarnings :
    Replaced (Gives Switches) i.overrides.logWarnings (valuesOf "--log-warnings" ps) j.overrides.logWarnings
  hotReload : Replaced (Gives Switches) i.overrides.hotReload (valuesOf "--hot-reload" ps) j.overrides.hotReload

theorem Updated.trans {i j k : Invocation} {ps ps' : List (String × Option String)} (h : i.Updated ps j)
    (h' : j.Updated ps' k) : i.Updated (ps ++ ps') k := by
  constructor <;> unfold valuesOf <;> rw [List.filterMap_append]
  · exact h.config.trans h'.config
  · exact h.scriptRoot.trans h'.scriptRoot
  · exact h.ticks.trans h'.ticks
  · exact h.logWarnings.trans h'.logWarnings
  · exact h.hotReload.trans h'.hotReload

theorem Sets.updated {p : String × Option String} {f : Invocation → Invocation} (h : Sets p f) (i : Invocation) :
    i.Updated [p] (f i) := by
  cases h with
  | config value => exact ⟨⟨_, rfl, rfl⟩, rfl, rfl, rfl, rfl⟩
  | scriptRoot value => exact ⟨rfl, ⟨_, rfl, rfl⟩, rfl, rfl, rfl⟩
  | ticks hn => exact ⟨rfl, rfl, ⟨_, hn, rfl⟩, rfl, rfl⟩
  | logWarnings hb => exact ⟨rfl, rfl, rfl, ⟨_, hb, rfl⟩, rfl⟩
  | hotReload hb => exact ⟨rfl, rfl, rfl, rfl, ⟨_, hb, rfl⟩⟩

theorem updated_of_foldlM {ps : List (String × Option String)} {i j : Invocation}
    (h : ps.foldlM enter i = .ok j) : i.Updated ps j := by
  induction ps generalizing i with
  | nil =>
    cases h
    exact ⟨rfl, rfl, rfl, rfl, rfl⟩
  | cons p more ih =>
    rcases sets_or_fault p with ⟨f, hf⟩ | ⟨fault, hfault⟩
    · rw [foldlM_cons_of_sets hf] at h
      exact (hf.updated i).trans (ih h)
    · rw [foldlM_cons_of_fault hfault] at h
      cases h

end Invocation

/-- Settings with the last values of some pairs in them.  What has no flag is as it was. -/
structure Settings.Overridden (s s' : Settings) (ps : List (String × Option String)) : Prop where
  root : Replaced IsPath s.scripts.root (valuesOf "--script-root" ps) s'.scripts.root
  ticks : Replaced Counts s.host.ticks (valuesOf "--ticks" ps) s'.host.ticks
  logWarnings : Replaced Switches s.scripts.logWarnings (valuesOf "--log-warnings" ps) s'.scripts.logWarnings
  hotReload : Replaced Switches s.scripts.hotReload (valuesOf "--hot-reload" ps) s'.scripts.hotReload
  others : s' =
    { s with
      scripts :=
        { s.scripts with
          root := s'.scripts.root
          logWarnings := s'.scripts.logWarnings
          hotReload := s'.scripts.hotReload }
      host := { s.host with ticks := s'.host.ticks } }

namespace Invocation

theorem Updated.overridden {ps : List (String × Option String)} {i : Invocation} (h : Updated {} ps i)
    (s : Settings) : s.Overridden (s.override i.overrides) ps where
  root := h.scriptRoot.getD s.scripts.root
  ticks := h.ticks.getD s.host.ticks
  logWarnings := h.logWarnings.getD s.scripts.logWarnings
  hotReload := h.hotReload.getD s.scripts.hotReload
  others := rfl

/-! ## Section 6 - command lines -/

/-- Two command lines that make sense make sense one behind the other, and override settings as they do one after the
    other: the last value of each flag counts, what has no flag stays, and a second time changes nothing.  A
    command line makes no sense exactly if one of its pairs makes none, and says of the first of them what is wrong. -/
theorem command_lines_compose :
    (∀ (program : String) (a b : List String) (i j : Invocation),
      parse (program :: a) = .ok i → parse (program :: b) = .ok j →
        ∃ k, parse (program :: (a ++ b)) = .ok k ∧ ∀ s : Settings,
          s.override k.overrides = (s.override i.overrides).override j.overrides ∧
          s.Overridden (s.override k.overrides) (pairs (a ++ b)) ∧
          (s.override k.overrides).override k.overrides = s.override k.overrides) ∧
    ∀ arguments : List String,
      ((∃ fault, parse arguments = .error fault) ↔
        ∃ p ∈ pairs (arguments.drop 1), ∃ fault, CommandFault.Of p fault) ∧
      ∀ fault, parse arguments = .error fault ↔ FirstFault (pairs (arguments.drop 1)) fault := by
  constructor
  · intro program a b i j ha hb
    have hparse : takeAll {} (a ++ b) = .ok (i.followedBy j) := takeAll_append ha hb
    refine ⟨i.followedBy j, hparse, ?_⟩
    rw [takeAll_eq] at hparse
    intro s
    exact ⟨override_followedBy s i j, (updated_of_foldlM hparse).overridden s, override_override s _⟩
  · intro arguments
    have hfirst : ∀ fault, parse arguments = .error fault ↔ FirstFault (pairs (arguments.drop 1)) fault := by
      intro fault
      unfold parse
      rw [takeAll_eq]
      exact foldlM_eq_error_iff _ _ fault
    refine ⟨?_, hfirst⟩
    constructor
    · rintro ⟨fault, hfault⟩
      obtain ⟨front, p, rest, hsplit, -, hp⟩ := (hfirst fault).1 hfault
      exact ⟨p, hsplit ▸ List.mem_append_right _ List.mem_cons_self, fault, hp⟩
    · rintro ⟨p, hp, fault, hfault⟩
      have hsome := foldlM_isOk_iff (pairs (arguments.drop 1)) {}
      cases hparse : parse arguments with
      | error fault' => exact ⟨fault', rfl⟩
      | ok k =>
        unfold parse at hparse
        rw [takeAll_eq] at hparse
        obtain ⟨f, hf⟩ := hsome.1 ⟨k, hparse⟩ p hp
        exact absurd hfault (hf.not_fault fault)

/-- Of two tick counts the second counts, with the switch of the first line. -/
theorem command_lines_compose_ticks :
    parse ["app", "--ticks", "5", "--hot-reload", "OFF"] = .ok ⟨none, none, some 5, none, some false⟩ ∧
    parse ["app", "--ticks", "+9"] = .ok ⟨none, none, some 9, none, none⟩ ∧
    ∃ k, parse ["app", "--ticks", "5", "--hot-reload", "OFF", "--ticks", "+9"] = .ok k ∧ ∀ s : Settings,
      s.override k.overrides =
        (s.override ⟨none, some 5, none, some false⟩).override ⟨none, some 9, none, none⟩ := by
  have ha : parse ("app" :: ["--ticks", "5", "--hot-reload", "OFF"]) =
      .ok ⟨none, none, some 5, none, some false⟩ := by decide +kernel
  have hb : parse ("app" :: ["--ticks", "+9"]) = .ok ⟨none, none, some 9, none, none⟩ := by decide +kernel
  obtain ⟨k, hk, hall⟩ := command_lines_compose.1 _ _ _ _ _ ha hb
  exact ⟨ha, hb, k, hk, fun s => (hall s).1⟩

end Invocation

end HotReload
