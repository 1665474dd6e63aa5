import HotReload.Script.Context

/-! # Extraction

Finds the one behaviour type that a source declares. The compiler remembers every type it has compiled, so a name does
not tell which of them came from a given source. Therefore an empty type with a name of its own, the marker, is
appended to the source: once it is looked up, its assembly holds what the source declares, besides the marker and the
wrapper.
-/

namespace HotReload

open Body (Value)

/-- The name of the marker with a number. -/
def markerName (n : Nat) : String := s!"ReloadMarker_{n}"

/-- The declaration of a marker, which is appended to a source. It starts on a line of its own, so that a comment at the
end of the source does not reach it. -/
def markerDeclaration (marker : String) : String := s!"\nclass {marker} \x7b\x7d\n"

/-- The expression that looks up a marker. -/
def markerLookup (marker : String) : String := "type_ref(\"" ++ marker ++ "\")"

/-- What was found in a source. -/
structure Extracted where
  behaviour : BehaviourType
  marker : String
  diagnostics : Report
  deriving Inhabited

/-- The types of the assembly of a marker that the source declares. -/
def candidates (assembly : Assembly) (marker : String) : List BehaviourType :=
  assembly.types.filter fun t => t.name ≠ wrapperName ∧ t.name ≠ marker

/-- The one type that the source declares. -/
def pick (assembly : Assembly) (marker : String) : Except ScriptError BehaviourType :=
  match candidates assembly marker with
  | [] => .error .noBehaviour
  | [t] => .ok t
  | ts => .error (.ambiguous (ts.map BehaviourType.name))

/-- What the lookup of a marker gave: the type, or why the marker is unresolved. -/
def resolved (marker : String) : Except String Value → Except ScriptError TypeRef
  | .ok (.typeRef ref) => .ok ref
  | .ok _ => .error (.markerUnresolved marker "evaluator did not return a type")
  | .error reason => .error (.markerUnresolved marker reason)

/-- Compiles a source and finds the behaviour type in it. Every use takes a new marker. -/
def Context.extract (c : Context) (source : String) : Used (Except ScriptError Extracted) :=
  let marker := markerName c.nextMarker
  let compiled := { c with nextMarker := c.nextMarker + 1 }.compile (source ++ markerDeclaration marker)
  match compiled.value with
  | .error error => ⟨compiled.context, .error error, compiled.log, []⟩
  | .ok diagnostics =>
    let found := compiled.context.evaluate (markerLookup marker)
    let value := do
      let ref ← resolved marker found.value
      let behaviour ← pick ref.assembly marker
      return ⟨behaviour, marker, diagnostics⟩
    ⟨found.context, value, compiled.log ++ found.log, found.printed⟩

end HotReload
