import HotReload.Settings.Record
import HotReload.Proofs.Settings.Parsing
import HotReload.Proofs.Lists
import Mathlib.Data.List.Perm.Basic
import Mathlib.Data.List.Nodup
import Mathlib.Data.List.Pairwise

/-! # Records and what they are read from

    What a value gives for the fields of a record, and that a record is read as these fields
    say.  Reading follows the order of the document and changes the record as it meets the
    fields; the fields themselves have an order of their own.  Both come to the same, because
    putting different fields into a record can be done in any order. -/

namespace HotReload

/-! ## Section 1 - what a value gives -/

namespace Json

/-- The text that a value is. -/
def text? : Json → Option String
  | text raw => textValue raw
  | _ => none

/-- The truth value that a value is. -/
def bool? : Json → Option Bool
  | bool b => some b
  | _ => none

/-- The natural number that a value is. -/
def natural? : Json → Option Nat
  | number raw => naturalValue raw
  | _ => none

/-- The list that a value is. -/
def list? {α : Type} (element? : Json → Option α) : Json → Option (List α)
  | array items => items.mapM element?
  | _ => none

/-- The members whose names are known, by their names.  There are none if a key names no characters. -/
def named? (known : List String) : List (List UInt8 × Json) → Option (List (String × Json))
  | [] => some []
  | (raw, j) :: members =>
    (textValue raw).bind fun name =>
      (named? known members).map fun given => if name ∈ known then (name, j) :: given else given

/-- The fields that a value gives: an object by name, each at most once, and an array by their order. -/
def fields? (known : List String) : Json → Option (List (String × Json))
  | object members => (named? known members).filter fun given => (given.map Prod.fst).Nodup
  | array items => if items.length ≤ known.length then some (known.zip items) else none
  | _ => none

end Json

/-- The value of a field that may be left out. -/
def valueOr {α : Type} (read : Json → Option α) (default : α) : Option Json → Option α
  | none => some default
  | some j => read j

/-! ## Section 2 - values as they are read -/

section Values

variable {d : Document} {j : Json}

theorem asText_of_shows (expected : String) (h : d.Shows j) : (d.asText expected).toOption = j.text? := by
  cases h with
  | text _ hshown =>
    rename_i s raw after
    change s.value.toOption = textValue raw
    cases hvalue : s.value with
    | ok v => rw [(hshown.value v).1 hvalue]; rfl
    | error fault =>
      cases htext : textValue raw with
      | none => rfl
      | some v => rw [(hshown.value v).2 htext] at hvalue; cases hvalue
  | _ => rfl

theorem asBool_of_shows (h : d.Shows j) : d.asBool.toOption = j.bool? := by
  cases h with
  | _ => rfl

theorem asNatural_of_shows (h : d.Shows j) : d.asNatural.toOption = j.natural? := by
  cases h with
  | @number n raw _ hshown =>
    change _ = naturalValue raw
    unfold Document.asNatural
    -- Only a natural number is one that a natural number spells.
    have hother : (∀ v, n.value ≠ .ok (.natural v)) → naturalValue raw = none := by
      intro hne
      cases hvalue : naturalValue raw with
      | none => rfl
      | some v => exact absurd ((hshown.natural v).2 hvalue) (hne v)
    cases hvalue : n.value with
    | error fault =>
      rw [hother (by intro v; rw [hvalue]; exact nofun)]
      simp only [hvalue]
      rfl
    | ok number =>
      cases number with
      | natural v =>
        rw [(hshown.natural v).1 hvalue]
        simp only [hvalue]
        rfl
      | negative v =>
        rw [hother (by intro v; rw [hvalue]; exact nofun)]
        simp only [hvalue]
        rfl
      | float x =>
        rw [hother (by intro v; rw [hvalue]; exact nofun)]
        simp only [hvalue]
        rfl
  | _ => rfl

theorem allItems_of_shows {α : Type} {read : Document → Except DocumentFault α} {read? : Json → Option α}
    (hread : ∀ {d : Document} {j : Json}, d.Shows j → (read d).toOption = read? j) {items : Items} {js : List Json}
    (h : items.Shows js) : (Document.allItems read items).toOption = js.mapM read? := by
  induction js generalizing items with
  | nil =>
    cases h with
    | close => rfl
  | cons j js ih =>
    cases h with
    | @item value rest _ _ _ hvalue hmore =>
      rw [Document.allItems, List.mapM_cons, ← hread hvalue, ← ih hmore]
      cases read value with
      | error fault => rfl
      | ok a =>
        change ((Document.allItems read rest).map (a :: ·)).toOption = _
        rw [toOption_map]
        cases (Document.allItems read rest).toOption with
        | none => rfl
        | some more => rfl

theorem asList_of_shows {α : Type} {read : Document → Except DocumentFault α} {read? : Json → Option α}
    (hread : ∀ {d : Document} {j : Json}, d.Shows j → (read d).toOption = read? j) (h : d.Shows j) :
    (d.asList read).toOption = j.list? read? := by
  cases h with
  | array _ hitems => exact allItems_of_shows hread hitems
  | _ => rfl

end Values

/-! ## Section 3 - fields -/

/-- A field of a record as a value gives it: how it is read, what a record holds for it, and how it is put into one. -/
structure Slot (ρ : Type) where
  name : String
  {kind : Type}
  read? : Json → Option kind
  get : ρ → kind
  put : kind → ρ → ρ
  /-- Putting back what a record holds changes nothing. -/
  put_get : ∀ record, put (get record) record = record

/-- Two fields do not disturb one another. -/
def Slot.Apart {ρ : Type} (slot slot' : Slot ρ) : Prop :=
  ∀ v v' record, slot.put v (slot'.put v' record) = slot'.put v' (slot.put v record)

instance {ρ : Type} : Std.Symm (@Slot.Apart ρ) where
  symm := by
    intro slot slot' h v v' record
    exact (h v' v record).symm

/-- What a value changes in a record as the field of a name. -/
def changeOf {ρ : Type} (slots : List (Slot ρ)) (name : String) (j : Json) : Option (ρ → ρ) :=
  (slots.find? fun slot => slot.name = name).bind fun slot => (slot.read? j).map slot.put

/-- A record with the change that a field makes. -/
def applyField {ρ : Type} (slots : List (Slot ρ)) (record : Option ρ) (field : String × Json) : Option ρ :=
  record.bind fun r => (changeOf slots field.1 field.2).map fun change => change r

/-- The record that given fields make of one: each field has the value that is given for it, or the one that it had. -/
def made {ρ : Type} (slots : List (Slot ρ)) (given : List (String × Json)) (record : ρ) : Option ρ :=
  slots.foldl (fun record slot => record.bind fun r =>
    (valueOr slot.read? (slot.get r) (given.lookup slot.name)).map fun v => slot.put v r) (some record)

/-- A field of a kind of record is the one that a value gives. -/
structure Field.Is {ρ : Type} (f : Field ρ) (slot : Slot ρ) : Prop where
  name : f.name = slot.name
  put : ∀ (record : ρ) {d : Document} {j : Json}, d.Shows j →
    (f.put record d).toOption = (slot.read? j).map fun v => slot.put v record

/-- The fields of a kind of record, as a value gives them. -/
structure Shape.HasSlots {ρ : Type} (s : Shape ρ) (slots : List (Slot ρ)) : Prop where
  fields : List.Forall₂ Field.Is s.fields slots
  distinct : (slots.map Slot.name).Nodup
  apart : slots.Pairwise Slot.Apart

/-- Fields with their values, each field at most once and no field unknown. -/
structure Given (known : List String) (given : List (String × Json)) : Prop where
  once : (given.map Prod.fst).Nodup
  known : ∀ field ∈ given, field.1 ∈ known

section Fields

variable {ρ : Type} {s : Shape ρ} {slots : List (Slot ρ)}

theorem changeOf_of_mem (hdistinct : (slots.map Slot.name).Nodup) {slot : Slot ρ} (h : slot ∈ slots) (j : Json) :
    changeOf slots slot.name j = (slot.read? j).map slot.put := by
  have hfind : (slots.find? fun other => decide (other.name = slot.name)) = some slot := by
    induction slots with
    | nil => cases h
    | cons first slots ih =>
      rw [List.map_cons, List.nodup_cons] at hdistinct
      rw [List.find?_cons]
      rcases List.mem_cons.1 h with rfl | hmem
      · simp
      · have hne : first.name ≠ slot.name := by
          intro heq
          exact hdistinct.1 (heq ▸ List.mem_map.2 ⟨slot, hmem, rfl⟩)
        simp only [hne, decide_false]
        exact ih hdistinct.2 hmem
  rw [changeOf, hfind, Option.bind_some]

theorem exists_slot_of_changeOf {name : String} {j : Json} {change : ρ → ρ} (h : changeOf slots name j = some change) :
    ∃ slot ∈ slots, slot.name = name ∧ ∃ v, change = slot.put v := by
  obtain ⟨slot, hfind, hmap⟩ := Option.bind_eq_some_iff.1 h
  obtain ⟨v, -, rfl⟩ := Option.map_eq_some_iff.1 hmap
  refine ⟨slot, List.mem_of_find?_eq_some hfind, ?_, v, rfl⟩
  simpa using List.find?_some hfind

theorem map_name_of_forall₂ {fs : List (Field ρ)} (h : List.Forall₂ Field.Is fs slots) :
    fs.map Field.name = slots.map Slot.name := by
  induction h with
  | nil => rfl
  | cons hfield _ ih => rw [List.map_cons, List.map_cons, hfield.name, ih]

theorem exists_slot_of_forall₂ {fs : List (Field ρ)} (h : List.Forall₂ Field.Is fs slots) {f : Field ρ} (hf : f ∈ fs) :
    ∃ slot ∈ slots, f.Is slot := by
  induction h with
  | nil => cases hf
  | @cons first slot _ _ hfield _ ih =>
    rcases List.mem_cons.1 hf with rfl | hmem
    · exact ⟨slot, List.mem_cons_self, hfield⟩
    · obtain ⟨slot', hslot', hfield'⟩ := ih hmem
      exact ⟨slot', List.mem_cons_of_mem _ hslot', hfield'⟩

theorem Shape.HasSlots.put_eq (h : s.HasSlots slots) {f : Field ρ} (hf : f ∈ s.fields) (record : ρ) {d : Document}
    {j : Json} (hshows : d.Shows j) :
    (f.put record d).toOption = applyField slots (some record) (f.name, j) := by
  obtain ⟨slot, hslot, hfield⟩ := exists_slot_of_forall₂ h.fields hf
  rw [hfield.put record hshows, applyField, hfield.name]
  simp only [Option.bind_some, changeOf_of_mem h.distinct hslot, Option.map_map]
  rfl

/-- Different fields can be put into a record in any order. -/
theorem Shape.HasSlots.comm (h : s.HasSlots slots) {record : Option ρ} {field field' : String × Json}
    (hne : field.1 ≠ field'.1) :
    applyField slots (applyField slots record field) field' =
      applyField slots (applyField slots record field') field := by
  unfold applyField
  cases record with
  | none => rfl
  | some r =>
    simp only [Option.bind_some]
    cases hfirst : changeOf slots field.1 field.2 with
    | none =>
      cases changeOf slots field'.1 field'.2 with
      | none => rfl
      | some change' => rfl
    | some change =>
      cases hsecond : changeOf slots field'.1 field'.2 with
      | none => rfl
      | some change' =>
        obtain ⟨slot, hslot, hname, v, rfl⟩ := exists_slot_of_changeOf hfirst
        obtain ⟨slot', hslot', hname', v', rfl⟩ := exists_slot_of_changeOf hsecond
        have hdifferent : slot ≠ slot' := by
          rintro rfl
          exact hne (hname.symm.trans hname')
        have hapart := h.apart.forall hslot hslot' hdifferent
        simp only [Option.map_some, Option.bind_some, hapart v v' r]

/-- Fields in the order in which they are given, and in the order in which they are known. -/
theorem Given.perm {known : List String} {given : List (String × Json)} (h : Given known given) (hknown : known.Nodup) :
    given.Perm (known.filterMap fun name => (given.lookup name).map fun j => (name, j)) := by
  rw [List.perm_ext_iff_of_nodup h.once.of_map]
  · rintro ⟨name, j⟩
    simp only [List.mem_filterMap, Option.map_eq_some_iff, Prod.mk.injEq]
    constructor
    · intro hmem
      exact ⟨name, h.known _ hmem, j, lookup_eq_some_of_mem h.once hmem, rfl, rfl⟩
    · rintro ⟨_, -, _, hlookup, rfl, rfl⟩
      exact mem_of_lookup_eq_some hlookup
  · apply hknown.filterMap
    intro name name' field hfield hfield'
    simp only [Option.mem_def, Option.map_eq_some_iff] at hfield hfield'
    obtain ⟨_, -, rfl⟩ := hfield
    obtain ⟨_, -, heq⟩ := hfield'
    exact (Prod.mk.inj heq).1.symm

/-- The order in which fields are given does not matter. -/
theorem foldl_applyField_eq_made (h : s.HasSlots slots) {given : List (String × Json)}
    (hgiven : Given (s.fields.map Field.name) given) (record : ρ) :
    given.foldl (applyField slots) (some record) = made slots given record := by
  rw [map_name_of_forall₂ h.fields] at hgiven
  have hperm := hgiven.perm h.distinct
  rw [hperm.foldl_eq', List.foldl_filterMap, List.foldl_map, made]
  · apply List.foldl_ext
    intro o slot hslot
    cases o with
    | none => cases given.lookup slot.name <;> rfl
    | some r =>
      cases given.lookup slot.name with
      | none => simp only [Option.map_none, Option.bind_some, valueOr, Option.map_some, slot.put_get]
      | some j =>
        simp only [Option.map_some, applyField, Option.bind_some, valueOr, changeOf_of_mem h.distinct hslot,
          Option.map_map]
        rfl
  · -- Two fields of one name are the same field, and two others do not disturb one another.
    intro field hfield field' hfield' o
    by_cases hne : field.1 = field'.1
    · have hj : given.lookup field.1 = some field.2 := lookup_eq_some_of_mem hgiven.once hfield
      have hj' : given.lookup field'.1 = some field'.2 := lookup_eq_some_of_mem hgiven.once hfield'
      rw [hne, hj', Option.some.injEq] at hj
      rw [Prod.ext hne hj.symm]
    · exact h.comm hne

theorem foldl_applyField_none (given : List (String × Json)) : given.foldl (applyField slots) none = none := by
  induction given with
  | nil => rfl
  | cons field given ih => exact ih

end Fields

/-! ## Section 4 - records -/

/-- All the fields that must be given are. -/
def Shape.Complete {ρ : Type} (s : Shape ρ) (names : List String) : Prop :=
  ∀ f ∈ s.fields, f.required = true → f.name ∈ names

section Records

variable {ρ : Type} {s : Shape ρ} {slots : List (Slot ρ)}

theorem Shape.HasSlots.fields_nodup (h : s.HasSlots slots) : (s.fields.map Field.name).Nodup := by
  rw [map_name_of_forall₂ h.fields]
  exact h.distinct

/-- What is asked of the fields that come after others. -/
structure Shape.Fills (s : Shape ρ) (seen names : List String) : Prop where
  once : names.Nodup
  fresh : ∀ name ∈ names, name ∉ seen
  complete : s.Complete (names ++ seen)

theorem fills_cons {seen names : List String} {name : String} (h : name ∉ seen) :
    s.Fills seen (name :: names) ↔ s.Fills (name :: seen) names := by
  have hperm : ∀ other, other ∈ name :: names ++ seen ↔ other ∈ names ++ name :: seen := by
    intro other
    simp only [List.cons_append, List.mem_cons, List.mem_append]
    tauto
  constructor
  · intro hfills
    obtain ⟨hnot, honce⟩ := List.nodup_cons.1 hfills.once
    refine ⟨honce, ?_, fun f hf hrequired => (hperm _).1 (hfills.complete f hf hrequired)⟩
    intro other hother hseen
    rcases List.mem_cons.1 hseen with rfl | hseen
    · exact hnot hother
    · exact hfills.fresh other (List.mem_cons_of_mem _ hother) hseen
  · intro hfills
    refine ⟨?_, ?_, fun f hf hrequired => (hperm _).2 (hfills.complete f hf hrequired)⟩
    · rw [List.nodup_cons]
      exact ⟨fun hmem => hfills.fresh name hmem List.mem_cons_self, hfills.once⟩
    · intro other hother
      rcases List.mem_cons.1 hother with rfl | hother
      · exact h
      · exact fun hseen => hfills.fresh other hother (List.mem_cons_of_mem _ hseen)

/-- With no more members to come it is asked that no field is still missing. -/
theorem fills_nil_iff {seen : List String} :
    s.Fills seen [] ↔ (s.fields.find? fun f => decide (f.required = true ∧ f.name ∉ seen)) = none := by
  rw [List.find?_eq_none]
  simp only [decide_eq_true_eq, not_and, not_not]
  constructor
  · intro hfills
    exact hfills.complete
  · intro hall
    exact ⟨List.nodup_nil, fun _ hmem => absurd hmem List.not_mem_nil, hall⟩

theorem not_mem_names_of_find? {name : String} (h : (s.fields.find? fun f => decide (f.name = name)) = none) :
    name ∉ s.fields.map Field.name := by
  intro hmem
  obtain ⟨f, hf, hfname⟩ := List.mem_map.1 hmem
  have hnot := List.find?_eq_none.1 h f hf
  simp [hfname] at hnot

/-- A record is filled by the changes of the known members, one after the other. -/
theorem fill_eq_ok_iff (h : s.HasSlots slots) {ms : List (List UInt8 × Json)} {members : Members}
    (hshows : members.Shows ms) (record r : ρ) (seen : List String) :
    s.fill record seen members = .ok r ↔
      ∃ given, Json.named? (s.fields.map Field.name) ms = some given ∧ s.Fills seen (given.map Prod.fst) ∧
        given.foldl (applyField slots) (some record) = some r := by
  -- The induction is on the members as they are spelled.  The record and the names that were seen grow with them.
  induction ms generalizing members record seen with
  | nil =>
    cases hshows with
    | close after =>
      rw [Shape.fill]
      cases hfind : s.fields.find? fun f => decide (f.required = true ∧ f.name ∉ seen) with
      | none =>
        have hfills := fills_nil_iff.2 hfind
        simpa [Json.named?] using fun _ => hfills
      | some f =>
        have hfills : ¬ s.Fills seen [] := by
          rw [fills_nil_iff, hfind]
          exact nofun
        simpa [Json.named?] using fun hyes => absurd hyes hfills
  | cons m ms ih =>
    cases hshows with
    | @member key raw value rest j _ turn hname hvalue hmore =>
      rw [Shape.fill, Json.named?]
      cases htext : textValue raw with
      | none =>
        cases hkey : key.value with
        | error fault => simp
        | ok name => rw [(hname.value name).1 hkey] at htext; cases htext
      | some name =>
        rw [(hname.value name).2 htext]
        simp only [Option.bind_some]
        cases hfind : s.fields.find? fun f => decide (f.name = name) with
        | none =>
          -- An unknown member is skipped.
          have hunknown := not_mem_names_of_find? hfind
          simp only [hvalue.skip, if_neg hunknown, Option.map_id_fun', id_eq]
          exact ih hmore record seen
        | some f =>
          have hf := List.mem_of_find?_eq_some hfind
          have hfname : f.name = name := by simpa using List.find?_some hfind
          have hknown : name ∈ s.fields.map Field.name := List.mem_map.2 ⟨f, hf, hfname⟩
          have hgiven : ∀ P : List (String × Json) → Prop,
              (∃ given, (Json.named? (s.fields.map Field.name) ms).map (fun given => (name, j) :: given) = some given ∧
                P given) ↔ ∃ given, Json.named? (s.fields.map Field.name) ms = some given ∧ P ((name, j) :: given) := by
            intro P
            simp [Option.map_eq_some_iff]
          simp only [if_pos hknown]
          rw [hgiven]
          simp only [List.map_cons, List.foldl_cons]
          -- A known member changes the record, unless its field was given before.
          by_cases hseen : name ∈ seen
          · rw [if_pos hseen]
            constructor
            · exact nofun
            · rintro ⟨given, -, hfills, -⟩
              exact absurd hseen (hfills.fresh name List.mem_cons_self)
          · rw [if_neg hseen]
            simp only [fills_cons hseen]
            have hput := h.put_eq hf record hvalue
            rw [hfname] at hput
            rw [← hput]
            cases f.put record value with
            | error fault =>
              simp only [Except.toOption, foldl_applyField_none]
              simp
            | ok record' => exact ih hmore record' (name :: seen)

/-- The elements of an array fill the fields in order, and what is left over may be left out. -/
theorem fillInOrder_eq_ok_iff (h : s.HasSlots slots) {js : List Json} {items : Items} (hshows : items.Shows js)
    (record r : ρ) (count : Nat) {fs : List (Field ρ)} (hfs : ∀ f ∈ fs, f ∈ s.fields) :
    s.fillInOrder record count fs items = .ok r ↔
      js.length ≤ fs.length ∧ (∀ f ∈ fs.drop js.length, f.required = false) ∧
        ((fs.map Field.name).zip js).foldl (applyField slots) (some record) = some r := by
  induction js generalizing items record count fs with
  | nil =>
    cases hshows with
    | close after =>
      cases fs with
      | nil => simp [Shape.fillInOrder]
      | cons f fs =>
        rw [Shape.fillInOrder]
        by_cases hany : (f :: fs).any Field.required = true
        · rw [if_pos hany]
          constructor
          · exact nofun
          · rintro ⟨-, hnone, -⟩
            obtain ⟨g, hg, hrequired⟩ := List.any_eq_true.1 hany
            rw [List.length_nil, List.drop_zero] at hnone
            rw [hnone g hg] at hrequired
            cases hrequired
        · rw [if_neg hany]
          rw [Bool.not_eq_true, List.any_eq_false] at hany
          simp only [Except.ok.injEq, List.length_nil, Nat.zero_le, List.drop_zero, true_and, List.zip_nil_right,
            List.foldl_nil, Option.some.injEq]
          constructor
          · intro heq
            exact ⟨fun g hg => by simpa using hany g hg, heq⟩
          · rintro ⟨-, heq⟩
            exact heq
  | cons j js ih =>
    cases hshows with
    | @item value rest _ _ start hvalue hmore =>
      cases fs with
      | nil => simp [Shape.fillInOrder]
      | cons f fs =>
        have hput := h.put_eq (hfs f List.mem_cons_self) record hvalue
        rw [Shape.fillInOrder]
        simp only [List.length_cons, Nat.add_le_add_iff_right, List.drop_succ_cons, List.map_cons, List.zip_cons_cons,
          List.foldl_cons, ← hput]
        cases f.put record value with
        | error fault => simp [Except.toOption, foldl_applyField_none]
        | ok record' => exact ih hmore record' (count + 1) fun g hg => hfs g (List.mem_cons_of_mem _ hg)

/-- With the first fields given, what must be given is if it is not left over. -/
theorem complete_take_iff (h : s.HasSlots slots) (n : Nat) :
    s.Complete ((s.fields.map Field.name).take n) ↔ ∀ f ∈ s.fields.drop n, f.required = false := by
  have hsplit : s.fields = s.fields.take n ++ s.fields.drop n := (List.take_append_drop n s.fields).symm
  have hdistinct := h.fields_nodup
  rw [hsplit, List.map_append, List.nodup_append] at hdistinct
  rw [← List.map_take]
  constructor
  · intro hcomplete f hf
    by_contra hrequired
    rw [Bool.not_eq_false] at hrequired
    have hmem := hcomplete f (List.mem_of_mem_drop hf) hrequired
    exact hdistinct.2.2 _ hmem _ (List.mem_map.2 ⟨f, hf, rfl⟩) rfl
  · intro hall f hf hrequired
    rw [hsplit] at hf
    rcases List.mem_append.1 hf with hf | hf
    · exact List.mem_map.2 ⟨f, hf, rfl⟩
    · rw [hall f hf] at hrequired
      cases hrequired

theorem named?_known {known : List String} {ms : List (List UInt8 × Json)} {given : List (String × Json)}
    (h : Json.named? known ms = some given) : ∀ field ∈ given, field.1 ∈ known := by
  induction ms generalizing given with
  | nil =>
    cases h
    exact fun _ hmem => absurd hmem List.not_mem_nil
  | cons m ms ih =>
    obtain ⟨name, -, hmap⟩ := Option.bind_eq_some_iff.1 h
    obtain ⟨more, hmore, rfl⟩ := Option.map_eq_some_iff.1 hmap
    intro field hfield
    split at hfield
    · next hknown =>
      rcases List.mem_cons.1 hfield with rfl | hfield
      · exact hknown
      · exact ih hmore field hfield
    · exact ih hmore field hfield

theorem fields?_given {known : List String} {j : Json} {given : List (String × Json)} (hknown : known.Nodup)
    (h : j.fields? known = some given) : Given known given := by
  cases j with
  | object members =>
    obtain ⟨hnamed, honce⟩ := Option.filter_eq_some_iff.1 h
    exact ⟨by simpa using honce, named?_known hnamed⟩
  | array items =>
    rw [Json.fields?] at h
    split at h
    · next hle =>
      cases h
      have hfst := map_fst_zip_of_le hle
      refine ⟨?_, ?_⟩
      · rw [hfst]
        exact hknown.sublist (List.take_sublist _ _)
      · intro field hfield
        have hmem : field.1 ∈ (known.zip items).map Prod.fst := List.mem_map.2 ⟨field, hfield, rfl⟩
        rw [hfst] at hmem
        exact List.mem_of_mem_take hmem
    · cases h
  | _ => cases h

/-- A record is read from what shows a value exactly if the value gives fields that make it. -/
theorem read_eq_ok_iff (h : s.HasSlots slots) {d : Document} {j : Json} (hshows : d.Shows j) (r : ρ) :
    s.read d = .ok r ↔
      ∃ given, j.fields? (s.fields.map Field.name) = some given ∧ s.Complete (given.map Prod.fst) ∧
        made slots given s.blank = some r := by
  -- It is enough to know this with the changes in the order in which the fields are given.
  suffices hfold : s.read d = .ok r ↔
      ∃ given, j.fields? (s.fields.map Field.name) = some given ∧ s.Complete (given.map Prod.fst) ∧
        given.foldl (applyField slots) (some s.blank) = some r by
    rw [hfold]
    constructor
    · rintro ⟨given, hfields, hcomplete, hmade⟩
      rw [foldl_applyField_eq_made h (fields?_given h.fields_nodup hfields)] at hmade
      exact ⟨given, hfields, hcomplete, hmade⟩
    · rintro ⟨given, hfields, hcomplete, hmade⟩
      rw [← foldl_applyField_eq_made h (fields?_given h.fields_nodup hfields)] at hmade
      exact ⟨given, hfields, hcomplete, hmade⟩
  cases hshows with
  | @object members ms before hmembers =>
    rw [Shape.read, fill_eq_ok_iff h hmembers]
    simp only [Json.fields?, Option.filter_eq_some_iff, decide_eq_true_eq]
    constructor
    · rintro ⟨given, hnamed, hfills, hfold⟩
      have hcomplete := hfills.complete
      rw [List.append_nil] at hcomplete
      exact ⟨given, ⟨hnamed, hfills.once⟩, hcomplete, hfold⟩
    · rintro ⟨given, ⟨hnamed, honce⟩, hcomplete, hfold⟩
      refine ⟨given, hnamed, ⟨honce, fun _ _ => List.not_mem_nil, ?_⟩, hfold⟩
      rw [List.append_nil]
      exact hcomplete
  | @array items js before hitems =>
    rw [Shape.read, fillInOrder_eq_ok_iff h hitems _ _ _ fun f hf => hf]
    simp only [Json.fields?, List.length_map]
    by_cases hle : js.length ≤ s.fields.length
    · rw [if_pos hle]
      have hfst : ((s.fields.map Field.name).zip js).map Prod.fst = (s.fields.map Field.name).take js.length :=
        map_fst_zip_of_le (by rw [List.length_map]; exact hle)
      simp only [Option.some.injEq, exists_eq_left', hle, true_and, hfst, complete_take_iff h]
    · rw [if_neg hle]
      simp [hle]
  | _ => simp [Shape.read, Json.fields?]

end Records

end HotReload
