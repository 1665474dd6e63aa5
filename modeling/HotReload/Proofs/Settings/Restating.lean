import HotReload.Proofs.Settings.Overlay
import HotReload.Proofs.Lists
import Mathlib.Logic.Relation

/-! # Other ways to write the same settings

    Two values may state the same settings: their members come in another order, one of them
    has members that nobody knows, or it leaves out a section that the other gives without any
    field.  Each such step, made in any object that settings are read from, keeps what the
    value stands for.

    A step is made at a level, which tells the fields that are known there and where their
    values belong.  The invariant of a step is that what is read at its level stays the same. -/

namespace HotReload

/-! ## Section 1 - levels and steps -/

/-- Where a value of the settings belongs.  A leaf is a value that is no record and holds none. -/
inductive Level where
  | settings
  | scripts
  | host
  | entities
  | entity
  | leaf
  deriving DecidableEq

namespace Level

/-- The fields that are known at a level. -/
def names : Level → List String
  | settings => ["scripts", "host", "entities"]
  | scripts => ["root", "extension", "log_warnings", "hot_reload", "watch_poll_ms", "skip_unchanged"]
  | host => ["tick_ms", "ticks"]
  | entity => ["name", "scripts"]
  | entities | leaf => []

/-- Where the value of a field belongs. -/
def below : Level → String → Level
  | settings, "scripts" => scripts
  | settings, "host" => host
  | settings, "entities" => entities
  | _, _ => leaf

end Level

namespace Json

/-- A value states at a level what another one does, in a way that differs in one place. -/
inductive Restates : Level → Json → Json → Prop where
  /-- The members of an object come in another order. -/
  | reorder {l : Level} {ms ms' : List (List UInt8 × Json)} (h : ms.Perm ms') : Restates l (object ms) (object ms')
  /-- A member that nobody knows is added, with any value. -/
  | unknown {l : Level} {raw : List UInt8} {name : String} (front back : List (List UInt8 × Json)) (value : Json)
      (spelled : textValue raw = some name) (h : name ∉ l.names) :
      Restates l (object (front ++ back)) (object (front ++ (raw, value) :: back))
  /-- A section is given without any field, in the place of none. -/
  | bare {raw : List UInt8} {name : String} (front back : List (List UInt8 × Json))
      (spelled : textValue raw = some name) (h : name = "scripts" ∨ name = "host") (absent : ∀ m ∈ front ++ back, textValue m.1 ≠ some name) :
      Restates .settings (object (front ++ back)) (object (front ++ (raw, object []) :: back))
  /-- The value of a member is restated. -/
  | member {l : Level} {raw : List UInt8} {name : String} {value value' : Json} (front back : List (List UInt8 × Json))
      (spelled : textValue raw = some name) (h : Restates (l.below name) value value') :
      Restates l (object (front ++ (raw, value) :: back)) (object (front ++ (raw, value') :: back))
  /-- One of the entities is restated. -/
  | element {value value' : Json} (front back : List Json) (h : Restates .entity value value') :
      Restates .entities (array (front ++ value :: back)) (array (front ++ value' :: back))

end Json

/-- Two values are read alike at a level. -/
def Level.Alike : Level → Json → Json → Prop
  | .settings, j, j' => Settings.overlay j = Settings.overlay j'
  | .scripts, j, j' => ScriptSettings.overlay j = ScriptSettings.overlay j'
  | .host, j, j' => TickSettings.overlay j = TickSettings.overlay j'
  | .entities, j, j' => j.list? EntitySettings.overlay = j'.list? EntitySettings.overlay
  | .entity, j, j' => EntitySettings.overlay j = EntitySettings.overlay j'
  | .leaf, j, j' => j.text? = j'.text? ∧ j.bool? = j'.bool? ∧ j.natural? = j'.natural? ∧
      j.list? Json.text? = j'.list? Json.text?

theorem Level.Alike.refl (l : Level) (j : Json) : l.Alike j j := by
  cases l with
  | leaf => exact ⟨rfl, rfl, rfl, rfl⟩
  | _ => rfl

/-- Two fields are read alike at a level: both are left out, or both are given alike, or one is a section without any
field in the place of none. -/
inductive Level.AlikeIfGiven (l : Level) : Option Json → Option Json → Prop where
  | none : Level.AlikeIfGiven l none none
  | some {j j' : Json} (h : l.Alike j j') : Level.AlikeIfGiven l (some j) (some j')
  | bare (h : l = .scripts ∨ l = .host) : Level.AlikeIfGiven l none (some (.object []))

theorem Level.AlikeIfGiven.refl (l : Level) (value : Option Json) : l.AlikeIfGiven value value := by
  cases value with
  | none => exact .none
  | some j => exact .some (.refl l j)

/-- Two values give the known fields of a level alike. -/
def Level.FieldsAlike (l : Level) (j j' : Json) : Prop :=
  Option.Rel (fun given given' => ∀ name ∈ l.names,
      (l.below name).AlikeIfGiven (given.lookup name) (given'.lookup name))
    (j.fields? l.names) (j'.fields? l.names)

/-! ## Section 2 - fields that are given alike are read alike -/

section Values

variable {α : Type} {read : Json → Option α} {value value' : Option Json}

/-- A field is read alike if what it may hold is, and if a bare section is read as none. -/
theorem valueOr_of_alike {l : Level} {default : α} (hread : ∀ {j j' : Json}, l.Alike j j' → read j = read j')
    (hbare : l = .scripts ∨ l = .host → read (.object []) = some default) (h : l.AlikeIfGiven value value') :
    valueOr read default value = valueOr read default value' := by
  cases h with
  | none => rfl
  | some halike => exact hread halike
  | bare hsection => exact (hbare hsection).symm

/-- A field of a leaf is read alike, whatever its default. -/
theorem valueOr_of_leaf {default : α} (hread : ∀ {j j' : Json}, Level.leaf.Alike j j' → read j = read j')
    (h : Level.leaf.AlikeIfGiven value value') : valueOr read default value = valueOr read default value' :=
  valueOr_of_alike hread (fun hsection => by rcases hsection with hsection | hsection <;> cases hsection) h

/-- So is a field that must be given. -/
theorem bind_of_leaf (h : Level.leaf.AlikeIfGiven value value') : value.bind Json.text? = value'.bind Json.text? := by
  cases h with
  | none => rfl
  | some halike => exact halike.1
  | bare hsection => rcases hsection with hsection | hsection <;> cases hsection

end Values

section Records

variable {j j' : Json}

theorem ScriptSettings.overlay_congr (h : Level.scripts.FieldsAlike j j') :
    ScriptSettings.overlay j = ScriptSettings.overlay j' := by
  refine bind_eq_of_rel h ?_
  intro given given' halike
  have htext : ∀ {default : String} (name : String), name ∈ Level.scripts.names →
      valueOr Json.text? default (given.lookup name) = valueOr Json.text? default (given'.lookup name) :=
    fun name hname => valueOr_of_leaf (fun h => h.1) (halike name hname)
  have hbool : ∀ {default : Bool} (name : String), name ∈ Level.scripts.names →
      valueOr Json.bool? default (given.lookup name) = valueOr Json.bool? default (given'.lookup name) :=
    fun name hname => valueOr_of_leaf (fun h => h.2.1) (halike name hname)
  have hnatural : ∀ {default : Nat} (name : String), name ∈ Level.scripts.names →
      valueOr Json.natural? default (given.lookup name) = valueOr Json.natural? default (given'.lookup name) :=
    fun name hname => valueOr_of_leaf (fun h => h.2.2.1) (halike name hname)
  simp only [htext "root" (by decide), htext "extension" (by decide), hbool "log_warnings" (by decide),
    hbool "hot_reload" (by decide), hnatural "watch_poll_ms" (by decide), hbool "skip_unchanged" (by decide)]

theorem TickSettings.overlay_congr (h : Level.host.FieldsAlike j j') :
    TickSettings.overlay j = TickSettings.overlay j' := by
  refine bind_eq_of_rel h ?_
  intro given given' halike
  have hnatural : ∀ {default : Nat} (name : String), name ∈ Level.host.names →
      valueOr Json.natural? default (given.lookup name) = valueOr Json.natural? default (given'.lookup name) :=
    fun name hname => valueOr_of_leaf (fun h => h.2.2.1) (halike name hname)
  simp only [hnatural "tick_ms" (by decide), hnatural "ticks" (by decide)]

theorem EntitySettings.overlay_congr (h : Level.entity.FieldsAlike j j') :
    EntitySettings.overlay j = EntitySettings.overlay j' := by
  refine bind_eq_of_rel h ?_
  intro given given' halike
  have hname := bind_of_leaf (halike "name" (by decide))
  have hscripts : valueOr (Json.list? Json.text?) ({} : EntitySettings).scripts (given.lookup "scripts") =
      valueOr (Json.list? Json.text?) ({} : EntitySettings).scripts (given'.lookup "scripts") :=
    valueOr_of_leaf (fun h => h.2.2.2) (halike "scripts" (by decide))
  simp only [hname, hscripts]

theorem ScriptSettings.overlay_bare : ScriptSettings.overlay (.object []) = some {} := rfl

theorem TickSettings.overlay_bare : TickSettings.overlay (.object []) = some {} := rfl

theorem Settings.overlay_congr (h : Level.settings.FieldsAlike j j') : Settings.overlay j = Settings.overlay j' := by
  refine bind_eq_of_rel h ?_
  intro given given' halike
  have hscripts : valueOr ScriptSettings.overlay ({} : Settings).scripts (given.lookup "scripts") =
      valueOr ScriptSettings.overlay ({} : Settings).scripts (given'.lookup "scripts") :=
    valueOr_of_alike (l := .scripts) (fun h => h) (fun _ => ScriptSettings.overlay_bare) (halike "scripts" (by decide))
  have hhost : valueOr TickSettings.overlay ({} : Settings).host (given.lookup "host") =
      valueOr TickSettings.overlay ({} : Settings).host (given'.lookup "host") :=
    valueOr_of_alike (l := .host) (fun h => h) (fun _ => TickSettings.overlay_bare) (halike "host" (by decide))
  have hentities : valueOr (Json.list? EntitySettings.overlay) ({} : Settings).entities (given.lookup "entities") =
      valueOr (Json.list? EntitySettings.overlay) ({} : Settings).entities (given'.lookup "entities") :=
    valueOr_of_alike (l := .entities) (fun h => h)
      (fun hsection => by rcases hsection with hsection | hsection <;> cases hsection) (halike "entities" (by decide))
  simp only [hscripts, hhost, hentities]

/-- Objects that give the known fields of a level alike are read alike there. -/
theorem Level.alike_of_fieldsAlike {l : Level} {ms ms' : List (List UInt8 × Json)}
    (h : l.FieldsAlike (.object ms) (.object ms')) : l.Alike (.object ms) (.object ms') := by
  cases l with
  | settings => exact Settings.overlay_congr h
  | scripts => exact ScriptSettings.overlay_congr h
  | host => exact TickSettings.overlay_congr h
  | entity => exact EntitySettings.overlay_congr h
  | entities => rfl
  | leaf => exact ⟨rfl, rfl, rfl, rfl⟩

end Records

/-! ## Section 3 - steps keep what is read -/

theorem named?_append (known : List String) (front back : List (List UInt8 × Json)) :
    Json.named? known (front ++ back) =
      (Json.named? known front).bind fun given => (Json.named? known back).map fun more => given ++ more := by
  induction front with
  | nil => simp [Json.named?]
  | cons m front ih =>
    rw [List.cons_append, Json.named?, Json.named?, ih]
    cases textValue m.1 with
    | none => rfl
    | some name =>
      simp only [Option.bind_some]
      cases Json.named? known front with
      | none => rfl
      | some given =>
        cases Json.named? known back with
        | none => rfl
        | some more =>
          simp only [Option.bind_some, Option.map_some]
          split <;> rfl

theorem named?_cons_known {known : List String} {raw : List UInt8} {name : String}
    (hspelled : textValue raw = some name) (hknown : name ∈ known) (j : Json) (ms : List (List UInt8 × Json)) :
    Json.named? known ((raw, j) :: ms) = (Json.named? known ms).map fun given => (name, j) :: given := by
  rw [Json.named?, hspelled]
  simp only [Option.bind_some, if_pos hknown]

theorem named?_cons_unknown {known : List String} {raw : List UInt8} {name : String}
    (hspelled : textValue raw = some name) (hunknown : name ∉ known) (j : Json) (ms : List (List UInt8 × Json)) :
    Json.named? known ((raw, j) :: ms) = Json.named? known ms := by
  rw [Json.named?, hspelled]
  simp only [Option.bind_some, if_neg hunknown, Option.map_id_fun', id_eq]

/-- A known member among others is found among them. -/
theorem named?_splice {known : List String} {raw : List UInt8} {name : String} (hspelled : textValue raw = some name)
    (hknown : name ∈ known) (front back : List (List UInt8 × Json)) (j : Json) :
    Json.named? known (front ++ (raw, j) :: back) =
      (Json.named? known front).bind fun given =>
        (Json.named? known back).map fun more => given ++ (name, j) :: more := by
  rw [named?_append, named?_cons_known hspelled hknown]
  simp only [Option.map_map]
  rfl

theorem named?_perm (known : List String) {ms ms' : List (List UInt8 × Json)} (h : ms.Perm ms') :
    Option.Rel List.Perm (Json.named? known ms) (Json.named? known ms') := by
  induction h with
  | nil => exact .some .nil
  | @cons m ms ms' _ ih =>
    rw [Json.named?, Json.named?]
    cases textValue m.1 with
    | none => exact .none
    | some name =>
      simp only [Option.bind_some]
      generalize Json.named? known ms = o at ih
      generalize Json.named? known ms' = o' at ih
      cases ih with
      | none => exact .none
      | some hperm =>
        apply Option.Rel.some
        split
        · exact hperm.cons _
        · exact hperm
  | swap m m' ms =>
    simp only [Json.named?]
    cases textValue m.1 with
    | none =>
      cases textValue m'.1 with
      | none => exact .none
      | some name' => exact .none
    | some name =>
      cases textValue m'.1 with
      | none => exact .none
      | some name' =>
        simp only [Option.bind_some]
        cases Json.named? known ms with
        | none => exact .none
        | some given =>
          apply Option.Rel.some
          split
          · split
            · exact .swap _ _ _
            · exact .refl _
          · exact .refl _
  | @trans ms ms' ms'' _ _ ih ih' =>
    generalize Json.named? known ms = o at ih
    generalize Json.named? known ms' = o' at ih ih'
    generalize Json.named? known ms'' = o'' at ih'
    cases ih with
    | none => exact ih'
    | some hperm =>
      cases ih' with
      | some hperm' => exact .some (hperm.trans hperm')

section Steps

variable {l : Level} {ms ms' front back : List (List UInt8 × Json)}

/-- It is enough that the known members are given alike, whenever no field is given twice. -/
theorem fieldsAlike_of_named
    (h : Option.Rel (fun given given' => ((given.map Prod.fst).Nodup ↔ (given'.map Prod.fst).Nodup) ∧
        ((given.map Prod.fst).Nodup → ∀ name ∈ l.names,
          (l.below name).AlikeIfGiven (given.lookup name) (given'.lookup name)))
      (Json.named? l.names ms) (Json.named? l.names ms')) : l.FieldsAlike (.object ms) (.object ms') := by
  unfold Level.FieldsAlike
  change Option.Rel _ ((Json.named? l.names ms).filter _) ((Json.named? l.names ms').filter _)
  generalize Json.named? l.names ms = o at h
  generalize Json.named? l.names ms' = o' at h
  cases h with
  | none => exact .none
  | @some given given' hrel =>
    obtain ⟨hiff, halike⟩ := hrel
    by_cases honce : (given.map Prod.fst).Nodup
    · have honce' := hiff.1 honce
      simp only [Option.filter_some, decide_eq_true_eq, if_pos honce, if_pos honce']
      exact .some (halike honce)
    · have honce' : ¬ (given'.map Prod.fst).Nodup := fun hyes => honce (hiff.2 hyes)
      simp only [Option.filter_some, decide_eq_true_eq, if_neg honce, if_neg honce']
      exact .none

theorem fieldsAlike_refl (l : Level) (j : Json) : l.FieldsAlike j j := by
  unfold Level.FieldsAlike
  cases j.fields? l.names with
  | none => exact .none
  | some given => exact .some fun name _ => .refl _ _

theorem lookup_perm {given given' : List (String × Json)} (h : given.Perm given') (honce : (given.map Prod.fst).Nodup)
    (name : String) : given.lookup name = given'.lookup name := by
  have honce' : (given'.map Prod.fst).Nodup := (h.map Prod.fst).nodup_iff.1 honce
  have hiff : ∀ j, given.lookup name = some j ↔ given'.lookup name = some j := by
    intro j
    constructor
    · intro hlookup
      exact lookup_eq_some_of_mem honce' (h.mem_iff.1 (mem_of_lookup_eq_some hlookup))
    · intro hlookup
      exact lookup_eq_some_of_mem honce (h.mem_iff.2 (mem_of_lookup_eq_some hlookup))
  exact Option.ext hiff

theorem fieldsAlike_reorder (h : ms.Perm ms') : l.FieldsAlike (.object ms) (.object ms') := by
  apply fieldsAlike_of_named
  have hnamed := named?_perm l.names h
  generalize Json.named? l.names ms = o at hnamed
  generalize Json.named? l.names ms' = o' at hnamed
  cases hnamed with
  | none => exact .none
  | some hperm =>
    refine .some ⟨(hperm.map Prod.fst).nodup_iff, ?_⟩
    intro honce name _
    rw [lookup_perm hperm honce]
    exact .refl _ _

theorem fieldsAlike_of_named_eq (h : Json.named? l.names ms = Json.named? l.names ms') :
    l.FieldsAlike (.object ms) (.object ms') := by
  have heq : (Json.object ms).fields? l.names = (Json.object ms').fields? l.names := by
    rw [Json.fields?, Json.fields?, h]
  unfold Level.FieldsAlike
  rw [heq]
  exact fieldsAlike_refl l _

theorem fieldsAlike_unknown {raw : List UInt8} {name : String} (hspelled : textValue raw = some name)
    (hunknown : name ∉ l.names) (value : Json) :
    l.FieldsAlike (.object (front ++ back)) (.object (front ++ (raw, value) :: back)) := by
  apply fieldsAlike_of_named_eq
  rw [named?_append, named?_append, named?_cons_unknown hspelled hunknown]

theorem fieldsAlike_member {raw : List UInt8} {name : String} (hspelled : textValue raw = some name)
    {value value' : Json} (halike : (l.below name).Alike value value') :
    l.FieldsAlike (.object (front ++ (raw, value) :: back)) (.object (front ++ (raw, value') :: back)) := by
  by_cases hknown : name ∈ l.names
  · apply fieldsAlike_of_named
    rw [named?_splice hspelled hknown, named?_splice hspelled hknown]
    cases Json.named? l.names front with
    | none => exact .none
    | some given =>
      cases Json.named? l.names back with
      | none => exact .none
      | some more =>
        refine .some ⟨by simp, ?_⟩
        intro _ other _
        rw [List.lookup_append, List.lookup_append, List.lookup_cons, List.lookup_cons]
        cases given.lookup other with
        | some j => exact .refl _ _
        | none =>
          by_cases hother : other = name
          · subst hother
            simp only [beq_self_eq_true, Option.none_or]
            exact .some halike
          · simp only [beq_false_of_ne hother, Option.none_or]
            exact .refl _ _
  · apply fieldsAlike_of_named_eq
    rw [named?_append, named?_append, named?_cons_unknown hspelled hknown, named?_cons_unknown hspelled hknown]

theorem named?_absent {known : List String} {name : String} (h : ∀ m ∈ ms, textValue m.1 ≠ some name)
    {given : List (String × Json)} (hnamed : Json.named? known ms = some given) : name ∉ given.map Prod.fst := by
  induction ms generalizing given with
  | nil =>
    cases hnamed
    exact List.not_mem_nil
  | cons m ms ih =>
    obtain ⟨name', hspelled, hmap⟩ := Option.bind_eq_some_iff.1 hnamed
    obtain ⟨more, hmore, rfl⟩ := Option.map_eq_some_iff.1 hmap
    have hrest := ih (fun m' hm' => h m' (List.mem_cons_of_mem _ hm')) hmore
    split
    · rw [List.map_cons, List.mem_cons, not_or]
      refine ⟨?_, hrest⟩
      rintro rfl
      exact h m List.mem_cons_self hspelled
    · exact hrest

theorem fieldsAlike_bare {raw : List UInt8} {name : String} (hspelled : textValue raw = some name)
    (hsection : name = "scripts" ∨ name = "host") (habsent : ∀ m ∈ front ++ back, textValue m.1 ≠ some name) :
    Level.settings.FieldsAlike (.object (front ++ back)) (.object (front ++ (raw, .object []) :: back)) := by
  have hknown : name ∈ Level.settings.names := by
    rcases hsection with rfl | rfl
    · decide
    · decide
  apply fieldsAlike_of_named
  have hnot : ∀ given, Json.named? Level.settings.names (front ++ back) = some given → name ∉ given.map Prod.fst :=
    fun given hnamed => named?_absent habsent hnamed
  rw [named?_append] at hnot ⊢
  rw [named?_splice hspelled hknown]
  cases hfront : Json.named? Level.settings.names front with
  | none => exact .none
  | some given =>
    cases hback : Json.named? Level.settings.names back with
    | none => exact .none
    | some more =>
      have hfresh := hnot (given ++ more) (by rw [hfront, hback]; rfl)
      refine .some ⟨?_, ?_⟩
      · rw [List.map_append, List.map_append, List.map_cons, List.nodup_middle, List.nodup_cons, ← List.map_append]
        exact ⟨fun honce => ⟨hfresh, honce⟩, fun hand => hand.2⟩
      · intro _ other _
        rw [List.lookup_append, List.lookup_append, List.lookup_cons]
        by_cases hother : other = name
        · -- The section is not given before, and it is bare now.
          subst hother
          have hmissing : (given ++ more).lookup other = none := lookup_eq_none_iff.2 hfresh
          rw [List.lookup_append, Option.or_eq_none_iff] at hmissing
          simp only [beq_self_eq_true, hmissing.1, hmissing.2, Option.none_or]
          apply Level.AlikeIfGiven.bare
          rcases hsection with rfl | rfl
          · exact .inl rfl
          · exact .inr rfl
        · simp only [beq_false_of_ne hother]
          exact .refl _ _

end Steps

/-- A step keeps what is read at its level. -/
theorem Json.Restates.alike {l : Level} {j j' : Json} (h : Json.Restates l j j') : l.Alike j j' := by
  -- In an object it is enough that the known fields are given alike.
  induction h with
  | reorder hperm => exact Level.alike_of_fieldsAlike (fieldsAlike_reorder hperm)
  | unknown front back value hspelled hunknown =>
    exact Level.alike_of_fieldsAlike (fieldsAlike_unknown hspelled hunknown value)
  | bare front back hspelled hsection habsent =>
    exact Level.alike_of_fieldsAlike (l := .settings) (fieldsAlike_bare hspelled hsection habsent)
  | member front back hspelled _ ih => exact Level.alike_of_fieldsAlike (fieldsAlike_member hspelled ih)
  | @element value value' front back _ ih =>
    change EntitySettings.overlay value = EntitySettings.overlay value' at ih
    change (front ++ value :: back).mapM EntitySettings.overlay = (front ++ value' :: back).mapM EntitySettings.overlay
    rw [List.mapM_append, List.mapM_append, List.mapM_cons, List.mapM_cons, ih]

/-- Values that state the same settings in any number of steps stand for the same settings. -/
theorem overlay_eq_of_restated {j j' : Json} (h : Relation.EqvGen (Json.Restates .settings) j j') :
    Settings.overlay j = Settings.overlay j' := by
  induction h with
  | rel j j' hstep => exact hstep.alike
  | refl j => rfl
  | symm j j' _ ih => exact ih.symm
  | trans j j' j'' _ _ ih ih' => exact ih.trans ih'

/-! ## Section 4 - files -/

/-- What a file says, whatever stands in it: its settings are the defaults with the fields that are given replaced by
their values, or the defaults if it says nothing that can be taken as a whole. -/
structure Settings.OverlaysDefaults (f : Files) (p : Path) : Prop where
  /-- What is loaded is what some value stands for, and the file is a spelling of that value. -/
  loaded : ∀ settings, Settings.load f p = .ok settings →
    ∃ bytes j, f.readBytes p = .ok bytes ∧ Json.WrittenIn j bytes.toList ∧ Settings.overlay j = some settings
  /-- Whatever value the file is a spelling of, what is loaded is what the value stands for. -/
  written : ∀ bytes j, f.readBytes p = .ok bytes → Json.WrittenIn j bytes.toList →
    (Settings.load f p).toOption = Settings.overlay j
  /-- So is what is loaded from another file that states the same: with other white space, with the members of its
  objects in another order, with other unknown members, and with bare sections in the place of none. -/
  restated : ∀ bytes j, f.readBytes p = .ok bytes → Json.WrittenIn j bytes.toList →
    ∀ f' p' bytes' j', Files.readBytes f' p' = .ok bytes' → Json.WrittenIn j' bytes'.toList →
      Relation.EqvGen (Json.Restates .settings) j j' → (Settings.load f' p').toOption = (Settings.load f p).toOption
  /-- A file that is the spelling of no value that stands for settings is refused. -/
  refused : (∀ bytes j, f.readBytes p = .ok bytes → Json.WrittenIn j bytes.toList → Settings.overlay j = none) →
    ∃ fault, Settings.load f p = .error fault
  /-- Nothing of a file that is refused is taken. -/
  replaced : ∀ fault, Settings.load f p = .error fault → Settings.loadOrDefault f p = ({}, some fault.notice)

theorem load_of_readBytes {f : Files} {p : Path} {bytes : ByteArray} (h : f.readBytes p = .ok bytes) :
    (Settings.load f p).toOption = (Settings.ofBytes bytes).toOption := by
  rw [Settings.load, h]
  simp only
  cases Settings.ofBytes bytes with
  | error fault => rfl
  | ok settings => rfl

theorem load_eq_overlay {f : Files} {p : Path} {bytes : ByteArray} {j : Json} (h : f.readBytes p = .ok bytes)
    (hwritten : j.WrittenIn bytes.toList) : (Settings.load f p).toOption = Settings.overlay j := by
  rw [load_of_readBytes h, ofBytes_eq_overlay hwritten]

theorem writtenIn_of_load {f : Files} {p : Path} {settings : Settings} (h : Settings.load f p = .ok settings) :
    ∃ bytes j, f.readBytes p = .ok bytes ∧ Json.WrittenIn j bytes.toList ∧ Settings.overlay j = some settings := by
  have hload := h
  unfold Settings.load at h
  cases hread : f.readBytes p with
  | error reason => rw [hread] at h; cases h
  | ok bytes =>
    rw [hread] at h
    simp only at h
    cases hbytes : Settings.ofBytes bytes with
    | error reason => rw [hbytes] at h; cases h
    | ok settings' =>
      obtain ⟨j, hwritten⟩ := writtenIn_of_ofBytes hbytes
      refine ⟨bytes, j, rfl, hwritten, ?_⟩
      rw [← load_eq_overlay hread hwritten, hload]
      rfl

/-- Documents overlay the defaults. -/
theorem Settings.documents_overlay_defaults (f : Files) (p : Path) : Settings.OverlaysDefaults f p where
  loaded := fun _ h => writtenIn_of_load h
  written := fun _ _ h hwritten => load_eq_overlay h hwritten
  restated := by
    intro bytes j h hwritten f' p' bytes' j' h' hwritten' hrestated
    rw [load_eq_overlay h hwritten, load_eq_overlay h' hwritten']
    exact (overlay_eq_of_restated hrestated).symm
  refused := by
    intro hnone
    cases hload : Settings.load f p with
    | error fault => exact ⟨fault, rfl⟩
    | ok settings =>
      obtain ⟨bytes, j, hread, hwritten, hoverlay⟩ := writtenIn_of_load hload
      rw [hnone bytes j hread hwritten] at hoverlay
      cases hoverlay
  replaced := by
    intro fault h
    rw [Settings.loadOrDefault, h]

end HotReload
