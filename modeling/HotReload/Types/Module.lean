import HotReload.Body.Value

/-! # Host modules

A host module is a named list of functions that the program around the bodies offers them. A function is
found by its name and the kinds of its arguments. An engine is the list of modules installed into it, the
first one first; of two functions with one signature the one installed later counts.
-/

namespace HotReload

open Body

/-- The kinds of values by which host functions are told apart. -/
inductive Kind where
  | unit
  | bool
  | int
  | float
  | char
  | string
  | array
  | map
  | range
  | typeRef
  deriving DecidableEq, Repr, Inhabited

/-- The kind of a value. -/
def Body.Value.kind : Value → Kind
  | .unit => .unit
  | .bool _ => .bool
  | .int _ => .int
  | .float _ => .float
  | .char _ => .char
  | .string _ => .string
  | .array _ => .array
  | .map _ => .map
  | .range .. => .range
  | .typeRef _ => .typeRef

/-- What a host function does with its arguments. -/
structure HostReply where
  /-- Its value, or the text with which it refuses. -/
  result : Except String Value
  /-- The lines it prints. -/
  printed : List String := []

/-- One function of a host module. -/
structure HostFunction where
  name : String
  params : List Kind
  run : List Value → HostReply

/-- A named list of functions. -/
structure HostModule where
  name : String
  functions : List HostFunction

namespace HostModule

/-- The function of a module with a signature. Of two with one signature the later counts. -/
def function? (m : HostModule) (name : String) (kinds : List Kind) : Option HostFunction :=
  m.functions.reverse.find? fun f => f.name = name ∧ f.params = kinds

/-- A module as it is shown to a developer, who sees its name only. -/
def render (m : HostModule) : String := "HostModule \x7b name: " ++ quoted m.name ++ ", .. \x7d"

end HostModule

/-- The modules installed into an engine, the first one first. -/
abbrev Engine := List HostModule

/-- The function that a signature reaches, which is the one installed last. -/
def Engine.function? (engine : Engine) (name : String) (kinds : List Kind) : Option HostFunction :=
  engine.reverse.findSome? fun m => m.function? name kinds

/-- Installing a module hides the functions with the signatures that it offers, and no other. -/
theorem Engine.function?_install (engine : Engine) (m : HostModule) (name : String) (kinds : List Kind) :
    Engine.function? (engine ++ [m]) name kinds =
      (m.function? name kinds).or (Engine.function? engine name kinds) := by
  simp only [Engine.function?, List.reverse_append, List.reverse_cons, List.reverse_nil,
    List.nil_append, List.singleton_append, List.findSome?_cons]
  cases m.function? name kinds <;> rfl

/-! ## Module sets -/

/-- The modules that a compiler and the host that runs its output share. A set holds no two modules of
one name and only grows, so that its holders can keep up with it by counting. -/
abbrev ModuleSet := List HostModule

namespace ModuleSet

/-- Whether a set holds a module of a name. -/
def holds (s : ModuleSet) (name : String) : Bool := s.any fun m => m.name = name

/-- Adds a module at the end, unless the set holds one of its name. -/
def add (s : ModuleSet) (m : HostModule) : ModuleSet := if holds s m.name then s else s ++ [m]

/-- The set of some modules, in the order in which their names first come. -/
def ofList (ms : List HostModule) : ModuleSet := ms.foldl add []

/-- The names of a set, in order. -/
def names (s : ModuleSet) : List String := s.map HostModule.name

theorem holds_iff {s : ModuleSet} {name : String} : holds s name = true ↔ name ∈ names s := by
  simp [holds, names]

@[simp] theorem names_add (s : ModuleSet) (m : HostModule) :
    names (add s m) = if m.name ∈ names s then names s else names s ++ [m.name] := by
  by_cases h : m.name ∈ names s
  · rw [add, if_pos (holds_iff.2 h), if_pos h]
  · rw [add, if_neg (fun k => h (holds_iff.1 k)), if_neg h]
    simp [names]

/-- No name comes twice. -/
theorem nodup_names_add {s : ModuleSet} (h : (names s).Nodup) (m : HostModule) :
    (names (add s m)).Nodup := by
  rw [names_add]
  split
  · exact h
  · rename_i hm
    refine List.nodup_append.2 ⟨h, by simp, fun a ha b hb hab => hm ?_⟩
    rwa [← List.mem_singleton.1 hb, ← hab]

end ModuleSet

end HotReload
