import HotReload.Settings.Settings
import HotReload.Proofs.Settings.Records
import HotReload.Proofs.Settings.Spelling

/-! # Settings over the defaults

    What a value says about settings, stated field by field: a field that is given has the
    value that is given for it, and any other field has its default.  This is what is read
    from the bytes of the value. -/

namespace HotReload

/-! ## Section 1 - what a value stands for -/

/-- The script settings that a value stands for. -/
def ScriptSettings.overlay (j : Json) : Option ScriptSettings := do
  let given ← j.fields? ["root", "extension", "log_warnings", "hot_reload", "watch_poll_ms", "skip_unchanged"]
  let default : ScriptSettings := {}
  let root ← valueOr Json.text? default.root.text (given.lookup "root")
  let extension ← valueOr Json.text? default.extension (given.lookup "extension")
  let logWarnings ← valueOr Json.bool? default.logWarnings (given.lookup "log_warnings")
  let hotReload ← valueOr Json.bool? default.hotReload (given.lookup "hot_reload")
  let watchPollMs ← valueOr Json.natural? default.watchPollMs (given.lookup "watch_poll_ms")
  let skipUnchanged ← valueOr Json.bool? default.skipUnchanged (given.lookup "skip_unchanged")
  return { root := ⟨root⟩, extension, logWarnings, hotReload, watchPollMs, skipUnchanged }

/-- The tick settings that a value stands for. -/
def TickSettings.overlay (j : Json) : Option TickSettings := do
  let given ← j.fields? ["tick_ms", "ticks"]
  let default : TickSettings := {}
  let tickMs ← valueOr Json.natural? default.tickMs (given.lookup "tick_ms")
  let ticks ← valueOr Json.natural? default.ticks (given.lookup "ticks")
  return { tickMs, ticks }

/-- The entity that a value stands for.  Its name must be given. -/
def EntitySettings.overlay (j : Json) : Option EntitySettings := do
  let given ← j.fields? ["name", "scripts"]
  let default : EntitySettings := {}
  let name ← (given.lookup "name").bind Json.text?
  let scripts ← valueOr (Json.list? Json.text?) default.scripts (given.lookup "scripts")
  return { name, scripts }

/-- The settings that a value stands for. -/
def Settings.overlay (j : Json) : Option Settings := do
  let given ← j.fields? ["scripts", "host", "entities"]
  let default : Settings := {}
  let scripts ← valueOr ScriptSettings.overlay default.scripts (given.lookup "scripts")
  let host ← valueOr TickSettings.overlay default.host (given.lookup "host")
  let entities ← valueOr (Json.list? EntitySettings.overlay) default.entities (given.lookup "entities")
  return { scripts, host, entities }

/-- A section that gives one of its fields. -/
example : Settings.overlay (.object [(wordBytes "host", .object [(wordBytes "ticks", .number (wordBytes "20"))])]) =
    some { host := { ticks := 20 } } := rfl

/-! ## Section 2 - records and their fields -/

/-- A value stands for the record that the fields given by it make of one without any field given. -/
def Shape.StandsFor {ρ : Type} (s : Shape ρ) (slots : List (Slot ρ)) (overlay : Json → Option ρ) : Prop :=
  ∀ j r, overlay j = some r ↔
    ∃ given, j.fields? (s.fields.map Field.name) = some given ∧ s.Complete (given.map Prod.fst) ∧
      made slots given s.blank = some r

/-- The record that is read from what shows a value is the one that the value stands for. -/
theorem read_of_shows {ρ : Type} {s : Shape ρ} {slots : List (Slot ρ)} {overlay : Json → Option ρ}
    (h : s.HasSlots slots) (hoverlay : s.StandsFor slots overlay) {d : Document} {j : Json} (hshows : d.Shows j) :
    (s.read d).toOption = overlay j := by
  have hiff : ∀ r, s.read d = .ok r ↔ overlay j = some r := by
    intro r
    rw [read_eq_ok_iff h hshows, hoverlay]
  cases hread : s.read d with
  | ok r => exact ((hiff r).1 hread).symm
  | error fault =>
    cases hvalue : overlay j with
    | none => rfl
    | some r =>
      rw [(hiff r).2 hvalue] at hread
      cases hread

/-- Where no field must be given, a value stands for what its fields make. -/
theorem standsFor_of_optional {ρ : Type} {s : Shape ρ} {slots : List (Slot ρ)} {overlay : Json → Option ρ}
    (hoptional : ∀ f ∈ s.fields, f.required = false)
    (h : ∀ j, overlay j = (j.fields? (s.fields.map Field.name)).bind fun given => made slots given s.blank) :
    s.StandsFor slots overlay := by
  intro j r
  rw [h, Option.bind_eq_some_iff]
  constructor
  · rintro ⟨given, hfields, hmade⟩
    refine ⟨given, hfields, ?_, hmade⟩
    intro f hf hrequired
    rw [hoptional f hf] at hrequired
    cases hrequired
  · rintro ⟨given, hfields, -, hmade⟩
    exact ⟨given, hfields, hmade⟩

/-- A field that puts the value that it reads puts the value that is given. -/
theorem put_of_reads {ρ α : Type} (put : α → ρ → ρ) {e : Except DocumentFault α} {value : Option α}
    (h : e.toOption = value) (record : ρ) :
    (e.map fun v => put v record).toOption = value.map fun v => put v record := by
  rw [toOption_map, h]

namespace ScriptSettings

/-- The defaults of the fields, put together, are the script settings that nobody has written down. -/
theorem blank_shape : shape.blank = {} := rfl

/-- The fields of script settings. -/
def slots : List (Slot ScriptSettings) :=
  [{ name := "root", read? := Json.text?, get := fun s => s.root.text, put := fun v s => { s with root := ⟨v⟩ },
     put_get := fun _ => rfl },
   { name := "extension", read? := Json.text?, get := fun s => s.extension, put := fun v s => { s with extension := v },
     put_get := fun _ => rfl },
   { name := "log_warnings", read? := Json.bool?, get := fun s => s.logWarnings,
     put := fun v s => { s with logWarnings := v }, put_get := fun _ => rfl },
   { name := "hot_reload", read? := Json.bool?, get := fun s => s.hotReload,
     put := fun v s => { s with hotReload := v }, put_get := fun _ => rfl },
   { name := "watch_poll_ms", read? := Json.natural?, get := fun s => s.watchPollMs,
     put := fun v s => { s with watchPollMs := v }, put_get := fun _ => rfl },
   { name := "skip_unchanged", read? := Json.bool?, get := fun s => s.skipUnchanged,
     put := fun v s => { s with skipUnchanged := v }, put_get := fun _ => rfl }]

theorem hasSlots : shape.HasSlots slots where
  fields :=
    .cons ⟨rfl, fun record _ _ h => put_of_reads (fun v s => { s with root := ⟨v⟩ }) (asText_of_shows _ h) record⟩ <|
    .cons ⟨rfl, fun record _ _ h => put_of_reads (fun v s => { s with extension := v }) (asText_of_shows _ h) record⟩ <|
    .cons ⟨rfl, fun record _ _ h => put_of_reads (fun v s => { s with logWarnings := v }) (asBool_of_shows h) record⟩ <|
    .cons ⟨rfl, fun record _ _ h => put_of_reads (fun v s => { s with hotReload := v }) (asBool_of_shows h) record⟩ <|
    .cons ⟨rfl, fun record _ _ h =>
      put_of_reads (fun v s => { s with watchPollMs := v }) (asNatural_of_shows h) record⟩ <|
    .cons ⟨rfl, fun record _ _ h =>
      put_of_reads (fun v s => { s with skipUnchanged := v }) (asBool_of_shows h) record⟩
    .nil
  distinct := by decide
  apart := by simp [slots, Slot.Apart]

theorem standsFor : shape.StandsFor slots overlay := by
  apply standsFor_of_optional
  · decide
  intro j
  unfold overlay made
  rw [blank_shape]
  simp only [shape, slots, List.map_cons, List.map_nil, List.foldl_cons, List.foldl_nil, Option.bind_some,
    Option.bind_assoc, Option.map_eq_bind, Function.comp_def, Option.bind_eq_bind]
  rfl

end ScriptSettings

namespace TickSettings

/-- The same of tick settings. -/
theorem blank_shape : shape.blank = {} := rfl

/-- The fields of tick settings. -/
def slots : List (Slot TickSettings) :=
  [{ name := "tick_ms", read? := Json.natural?, get := fun s => s.tickMs, put := fun v s => { s with tickMs := v },
     put_get := fun _ => rfl },
   { name := "ticks", read? := Json.natural?, get := fun s => s.ticks, put := fun v s => { s with ticks := v },
     put_get := fun _ => rfl }]

theorem hasSlots : shape.HasSlots slots where
  fields :=
    .cons ⟨rfl, fun record _ _ h => put_of_reads (fun v s => { s with tickMs := v }) (asNatural_of_shows h) record⟩ <|
    .cons ⟨rfl, fun record _ _ h => put_of_reads (fun v s => { s with ticks := v }) (asNatural_of_shows h) record⟩
    .nil
  distinct := by decide
  apart := by simp [slots, Slot.Apart]

theorem standsFor : shape.StandsFor slots overlay := by
  apply standsFor_of_optional
  · decide
  intro j
  unfold overlay made
  rw [blank_shape]
  simp only [shape, slots, List.map_cons, List.map_nil, List.foldl_cons, List.foldl_nil, Option.bind_some,
    Option.bind_assoc, Option.map_eq_bind, Function.comp_def, Option.bind_eq_bind]
  rfl

end TickSettings

namespace EntitySettings

/-- The fields of an entity. -/
def slots : List (Slot EntitySettings) :=
  [{ name := "name", read? := Json.text?, get := fun s => s.name, put := fun v s => { s with name := v },
     put_get := fun _ => rfl },
   { name := "scripts", read? := Json.list? Json.text?, get := fun s => s.scripts,
     put := fun v s => { s with scripts := v }, put_get := fun _ => rfl }]

theorem hasSlots : shape.HasSlots slots where
  fields :=
    .cons ⟨rfl, fun record _ _ h => put_of_reads (fun v s => { s with name := v }) (asText_of_shows _ h) record⟩ <|
    .cons ⟨rfl, fun record _ _ h => put_of_reads (fun v s => { s with scripts := v })
      (asList_of_shows (asText_of_shows "a string") h) record⟩
    .nil
  distinct := by decide
  apart := by simp [slots, Slot.Apart]

/-- The name of an entity is the only field that must be given. -/
theorem standsFor : shape.StandsFor slots overlay := by
  intro j r
  have hcomplete : ∀ names, shape.Complete names ↔ "name" ∈ names := by
    intro names
    simp [Shape.Complete, shape, Field.required]
  refine Option.bind_eq_some_iff.trans (exists_congr fun given => and_congr_right fun hfields => ?_)
  rw [hcomplete, made]
  -- Without a name the value stands for nothing, and the fields are not complete.
  cases hlookup : given.lookup "name" with
  | none =>
    have hmissing : "name" ∉ given.map Prod.fst := lookup_eq_none_iff.1 hlookup
    constructor
    · intro hnone
      cases hnone
    · intro hand
      exact absurd hand.1 hmissing
  | some value =>
    have hmem : "name" ∈ given.map Prod.fst := List.mem_map.2 ⟨_, mem_of_lookup_eq_some hlookup, rfl⟩
    simp only [hmem, true_and, shape, slots, List.foldl_cons, List.foldl_nil, hlookup, valueOr, Option.bind_assoc,
      Option.map_eq_bind, Function.comp_def, Option.bind_eq_bind, Option.bind_some]
    rfl

end EntitySettings

namespace Settings

/-- A section that is left out is one that nobody has written down. -/
theorem blank_shape : shape.blank = {} := rfl

/-- The fields of settings. -/
def slots : List (Slot Settings) :=
  [{ name := "scripts", read? := ScriptSettings.overlay, get := fun s => s.scripts,
     put := fun v s => { s with scripts := v }, put_get := fun _ => rfl },
   { name := "host", read? := TickSettings.overlay, get := fun s => s.host, put := fun v s => { s with host := v },
     put_get := fun _ => rfl },
   { name := "entities", read? := Json.list? EntitySettings.overlay, get := fun s => s.entities,
     put := fun v s => { s with entities := v }, put_get := fun _ => rfl }]

theorem hasSlots : shape.HasSlots slots where
  fields :=
    .cons ⟨rfl, fun record _ _ h => put_of_reads (fun v s => { s with scripts := v })
      (read_of_shows ScriptSettings.hasSlots ScriptSettings.standsFor h) record⟩ <|
    .cons ⟨rfl, fun record _ _ h => put_of_reads (fun v s => { s with host := v })
      (read_of_shows TickSettings.hasSlots TickSettings.standsFor h) record⟩ <|
    .cons ⟨rfl, fun record _ _ h => put_of_reads (fun v s => { s with entities := v })
      (asList_of_shows (read_of_shows EntitySettings.hasSlots EntitySettings.standsFor) h) record⟩
    .nil
  distinct := by decide
  apart := by simp [slots, Slot.Apart]

theorem standsFor : shape.StandsFor slots overlay := by
  apply standsFor_of_optional
  · decide
  intro j
  unfold overlay made
  rw [blank_shape]
  simp only [shape, slots, List.map_cons, List.map_nil, List.foldl_cons, List.foldl_nil, Option.bind_some,
    Option.bind_assoc, Option.map_eq_bind, Function.comp_def, Option.bind_eq_bind]
  rfl

end Settings

/-! ## Section 3 - whole documents -/

theorem fill_ne_ok_of_cut {ρ : Type} (s : Shape ρ) :
    ∀ {members : Members}, members.Cut → ∀ (record r : ρ) (seen : List String), s.fill record seen members ≠ .ok r
  | .close _, h => h.elim
  | .stop .., _ => by
    intro record r seen hfill
    cases hfill
  | .member key turn value rest, h => by
    intro record r seen hfill
    have hrest := @fill_ne_ok_of_cut ρ s rest h
    rw [Shape.fill] at hfill
    split at hfill
    · cases hfill
    split at hfill
    · split at hfill
      · cases hfill
      · exact hrest _ _ _ hfill
    · split at hfill
      · cases hfill
      · split at hfill
        · cases hfill
        · exact hrest _ _ _ hfill

theorem fillInOrder_ne_ok_of_cut {ρ : Type} (s : Shape ρ) :
    ∀ {items : Items}, items.Cut → ∀ (record r : ρ) (count : Nat) (fs : List (Field ρ)),
      s.fillInOrder record count fs items ≠ .ok r
  | .close _, h => h.elim
  | .stop .., _ => by
    intro record r count fs hfill
    cases fs with
    | nil => cases hfill
    | cons f fs => cases hfill
  | .item start value rest, h => by
    intro record r count fs hfill
    have hrest := @fillInOrder_ne_ok_of_cut ρ s rest h
    cases fs with
    | nil => cases hfill
    | cons f fs =>
      rw [Shape.fillInOrder] at hfill
      split at hfill
      · cases hfill
      · exact hrest _ _ _ _ hfill

/-- Nothing is read from a document that was not read to its end. -/
theorem read_ne_ok_of_unfinished {ρ : Type} (s : Shape ρ) {d : Document} (h : d.Unfinished) (r : ρ) :
    s.read d ≠ .ok r := by
  cases h with
  | array before hcut => exact fillInOrder_ne_ok_of_cut s hcut _ _ _ _
  | object before hcut => exact fill_ne_ok_of_cut s hcut _ _ _
  | _ =>
    intro hread
    cases hread

/-- What is read from the bytes of a value is what the value stands for. -/
theorem ofBytes_eq_overlay {bytes : ByteArray} {j : Json} (h : j.WrittenIn bytes.toList) :
    (Settings.ofBytes bytes).toOption = Settings.overlay j := by
  obtain ⟨d, hdocument, hshows⟩ := ofBytes_of_writtenIn h
  have hread := read_of_shows Settings.hasSlots Settings.standsFor hshows
  rw [Settings.ofBytes, hdocument]
  simp only
  cases hsettings : Settings.shape.read d with
  | error fault =>
    rw [hsettings] at hread
    exact hread
  | ok settings =>
    rw [hsettings] at hread
    exact hread

/-- Bytes from which settings are read are those of a value. -/
theorem writtenIn_of_ofBytes {bytes : ByteArray} {settings : Settings} (h : Settings.ofBytes bytes = .ok settings) :
    ∃ j : Json, j.WrittenIn bytes.toList := by
  unfold Settings.ofBytes at h
  cases hdocument : Document.ofBytes bytes with
  | mk d surplus =>
    rw [hdocument] at h
    simp only at h
    cases hread : Settings.shape.read d with
    | error fault => rw [hread] at h; cases h
    | ok settings' =>
      rw [hread] at h
      cases surplus with
      | some fault => cases h
      | none =>
        rcases ofBytes_sound hdocument with hunfinished | ⟨j, hwritten, -⟩
        · exact absurd hread (read_ne_ok_of_unfinished _ hunfinished _)
        · exact ⟨j, hwritten⟩

end HotReload
