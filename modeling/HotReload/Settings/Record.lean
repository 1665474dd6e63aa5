import HotReload.Settings.Document

/-! # Records from documents

How values of given types are read from a document. A record may be written as an object, whose members come in any
order and may be left out, or as an array of its fields in order. Members that are no field of the record are
skipped. A field that is left out has a default of its own, or else it must be given.
-/

namespace HotReload

namespace Document

/-! ## Section 1 - scalars and lists -/

/-- The fault of a document that is not what was expected. A scalar that cannot be read is a fault of its own. -/
def mismatch (expected : String) : Document → DocumentFault
  | .null after => ⟨.wrongType .null expected, after⟩
  | .bool b after => ⟨.wrongType (.bool b) expected, after⟩
  | .number n after =>
    match n.value with
    | .ok n => ⟨.wrongType (.number n) expected, after⟩
    | .error fault => fault
  | .text s after =>
    match s.value with
    | .ok s => ⟨.wrongType (.text s) expected, after⟩
    | .error fault => fault
  | .array before _ => ⟨.wrongType .array expected, before⟩
  | .object before _ => ⟨.wrongType .object expected, before⟩
  | .broken fault => fault

/-- Reads a text. -/
def asText (expected : String) : Document → Except DocumentFault String
  | .text s _ => s.value
  | d => .error (d.mismatch expected)

/-- Reads a truth value. -/
def asBool : Document → Except DocumentFault Bool
  | .bool b _ => .ok b
  | d => .error (d.mismatch "a boolean")

/-- Reads a number that is not below zero. -/
def asNatural : Document → Except DocumentFault Nat
  | .number n after =>
    match n.value with
    | .ok (.natural n) => .ok n
    | .ok (.negative n) => .error ⟨.wrongValue (.number (.negative n)) "u64", after⟩
    | .ok (.float x) => .error ⟨.wrongType (.number (.float x)) "u64", after⟩
    | .error fault => .error fault
  | d => .error (d.mismatch "u64")

/-- Reads the rest of an array, element by element. -/
def allItems {α : Type} (read : Document → Except DocumentFault α) : Items → Except DocumentFault (List α)
  | .close _ => .ok []
  | .item _ value rest =>
    match read value with
    | .error fault => .error fault
    | .ok a => (allItems read rest).map (a :: ·)
  | .stop reason mark => .error ⟨reason.inArray, mark⟩

/-- Reads an array. -/
def asList {α : Type} (read : Document → Except DocumentFault α) : Document → Except DocumentFault (List α)
  | .array _ items => allItems read items
  | d => .error (d.mismatch "a sequence")

end Document

/-! ## Section 2 - records -/

/-- A field of a record: its name, and how its value is put into the record. -/
structure Field (ρ : Type) where
  name : String
  /-- Puts the default of the field into the record. A field without a default must be given. -/
  absent : Option (ρ → ρ)
  put : ρ → Document → Except DocumentFault ρ

/-- Whether a field must be given. -/
def Field.required {ρ : Type} (f : Field ρ) : Bool := f.absent.isNone

/-- A kind of record: its name, a record to begin with, and its fields in order. -/
structure Shape (ρ : Type) where
  name : String
  /-- What is left of it in the end belongs to fields that must be given. -/
  seed : ρ
  fields : List (Field ρ)

namespace Shape

variable {ρ : Type}

/-- The record without any field given, which is made field by field. -/
def blank (s : Shape ρ) : ρ := s.fields.foldl (fun record f => f.absent.elim record fun put => put record) s.seed

/-- Reads the members of an object into a record. `seen` holds the names of the fields that were given. -/
def fill (s : Shape ρ) (record : ρ) (seen : List String) : Members → Except DocumentFault ρ
  | .close after =>
    match s.fields.find? fun f => f.required ∧ f.name ∉ seen with
    | some f => .error ⟨.missingField f.name, after⟩
    | none => .ok record
  | .member key turn value rest =>
    match key.value with
    | .error fault => .error fault
    | .ok name =>
      match s.fields.find? fun f => f.name = name with
      | none =>
        match value.skip with
        | .error fault => .error fault
        | .ok _ => s.fill record seen rest
      | some f =>
        if name ∈ seen then .error ⟨.duplicateField name, turn⟩
        else
          match f.put record value with
          | .error fault => .error fault
          | .ok record => s.fill record (name :: seen) rest
  | .stop reason mark => .error ⟨reason.inObject, mark⟩

/-- Reads the elements of an array into the fields of a record, in order. `given` counts the fields before. -/
def fillInOrder (s : Shape ρ) (record : ρ) (given : Nat) : List (Field ρ) → Items → Except DocumentFault ρ
  | [], .close _ => .ok record
  | [], .item start .. => .error ⟨.trailingBytes, start⟩
  | [], .stop reason mark => .error ⟨reason.afterArray, mark⟩
  | f :: fs, .close after =>
    if (f :: fs).any Field.required then
      .error ⟨.tooShort given s!"struct {s.name} with {s.fields.length} elements", after⟩
    else .ok record
  | f :: fs, .item _ value rest =>
    match f.put record value with
    | .error fault => .error fault
    | .ok record => fillInOrder s record (given + 1) fs rest
  | _ :: _, .stop reason mark => .error ⟨reason.inArray, mark⟩

/-- Reads a record over one that holds the values of the fields that are left out. -/
def read (s : Shape ρ) : Document → Except DocumentFault ρ
  | .object _ members => s.fill s.blank [] members
  | .array _ items => s.fillInOrder s.blank 0 s.fields items
  | d => .error (d.mismatch s!"struct {s.name}")

end Shape

end HotReload
