import HotReload.Body.Syntax

/-! # Types and assemblies

Every successful compile emits one assembly: the types that its unit declares, after a wrapper type that
every assembly begins with. A type remembers the assembly it was compiled into, which tells apart the
generations of a type that keeps its name.
-/

namespace HotReload

/-- A compiled type. -/
structure BehaviourType where
  name : String
  base : Option String
  /-- The number of the assembly that the type was compiled into. -/
  assembly : Nat
  program : Body.Program
  deriving Inhabited

/-- The name of the wrapper type, which no declaration can have. -/
def wrapperName : String := "<InteractiveExpressionClass>"

/-- The bases that a declared type is expected to name. -/
def behaviourBases : List String := ["Behaviour", "Behavior"]

namespace BehaviourType

/-- The wrapper type of an assembly. -/
def wrapper (assembly : Nat) : BehaviourType := ⟨wrapperName, none, assembly, .empty⟩

/-- Whether a type is the wrapper of its assembly. -/
def isWrapper (t : BehaviourType) : Bool := t.name = wrapperName

@[simp] theorem isWrapper_wrapper (n : Nat) : (wrapper n).isWrapper = true := rfl

end BehaviourType

/-- What one successful compile emits. -/
structure Assembly where
  id : Nat
  types : List BehaviourType
  deriving Inhabited

/-- A type together with the assembly that holds it. -/
structure TypeRef where
  type : BehaviourType
  assembly : Assembly
  deriving Inhabited

end HotReload
