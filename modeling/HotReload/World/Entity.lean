/-! # Entities

The names of the things that scripts are attached to, and what a host has to say when it cannot do what a script asks of
one.
-/

namespace HotReload

/-- An entity: a slot of the world, and how often the slot has been taken. The number of an entity that is gone is
taken by another only with a higher generation. -/
structure Entity where
  index : Nat
  generation : Nat := 1
  deriving DecidableEq, Repr, Inhabited

namespace Entity

/-- Index and generation as one number. -/
def bits (e : Entity) : Nat := e.generation * 4294967296 + e.index

/-- An entity as messages show it. -/
def render (e : Entity) : String := s!"{e.index}v{e.generation}#{e.bits}"

end Entity

/-- One instance of a behaviour on an entity. -/
structure InstanceRef where
  entity : Entity
  id : Nat
  deriving DecidableEq, Repr, Inhabited

/-- Why a host could not do something to an entity. -/
inductive HostError where
  | entityNotFound (entity : Entity)
  | namedNotFound (name : String)
  /-- The statements of a type failed when an instance of it was to be made. -/
  | refused (entity : Entity) (type reason : String)
  deriving DecidableEq, Repr, Inhabited

/-- The words for an error. -/
def HostError.message : HostError → String
  | .entityNotFound e => s!"entity {e.render} does not exist"
  | .namedNotFound name => s!"no entity named '{name}'"
  | .refused e type reason => s!"entity {e.render} refused behaviour '{type}': {reason}"

end HotReload
