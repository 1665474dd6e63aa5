import HotReload.Types.Assembly
import HotReload.Body.Value
import HotReload.World.Entity

/-! # The world

A world holds entities, which may have a name and may carry behaviours. Entities that have the same of the two
stand in one table, and the world is gone through table by table, in the order in which the tables were first needed. Whoever
leaves a table is replaced by the last of it.

A slot that becomes free is taken again before a new one is, the last freed first.
-/

namespace HotReload

open Body (Value)

/-- An instance of a behaviour. -/
structure Instance where
  id : Nat
  type : BehaviourType
  /-- Its fields, or whatever its hooks have made of them. -/
  self : Value
  /-- Whether it has had its first tick. -/
  ready : Bool := false
  deriving Inhabited

/-- What there is to an entity. -/
structure Being where
  entity : Entity
  name : Option String := none
  behaviours : Option (List Instance) := none
  deriving Inhabited

/-- What decides the table of an entity: whether it has a name, and whether it carries behaviours. -/
structure Archetype where
  named : Bool
  behaving : Bool
  deriving DecidableEq, Repr, Inhabited

/-- The archetype of an entity. -/
def Being.archetype (b : Being) : Archetype := ⟨b.name.isSome, b.behaviours.isSome⟩

/-- The instances on an entity. -/
def Being.instances (b : Being) : List Instance := b.behaviours.getD []

/-- The entities of one archetype. -/
structure Table where
  archetype : Archetype
  rows : List Being := []
  deriving Inhabited

/-- A world of entities. -/
structure World where
  tables : List Table := [⟨⟨false, false⟩, []⟩]
  /-- The generation of every slot that was ever taken. -/
  generations : List Nat := []
  /-- The slots that are free, the last freed first. -/
  free : List Nat := []
  deriving Inhabited

namespace World

/-! ## Section 1 - looking -/

/-- All entities, in the order in which the world is gone through. -/
def beings (w : World) : List Being := w.tables.flatMap Table.rows

/-- What there is to an entity. -/
def being? (w : World) (e : Entity) : Option Being := w.beings.find? fun b => b.entity = e

/-- Whether an entity is alive. -/
def contains (w : World) (e : Entity) : Bool := (w.being? e).isSome

/-- The name of an entity. -/
def nameOf (w : World) (e : Entity) : Option String := (w.being? e).bind Being.name

/-- The instances on an entity. -/
def instancesOn (w : World) (e : Entity) : List Instance := ((w.being? e).map Being.instances).getD []

/-- The first entity with a name. -/
def findNamed (w : World) (name : String) : Option Entity :=
  (w.beings.find? fun b => b.name = some name).map Being.entity

/-! ## Section 2 - coming and going -/

/-- Puts an entity at the end of the table of its archetype, and makes the table if there is none. -/
def place (w : World) (b : Being) : World :=
  if w.tables.any fun t => t.archetype = b.archetype then
    { w with
      tables := w.tables.map fun t =>
        if t.archetype = b.archetype then { t with rows := t.rows ++ [b] } else t }
  else { w with tables := w.tables ++ [⟨b.archetype, [b]⟩] }

/-- Takes an entity out of a table, and moves the last one into its place. -/
def leave (e : Entity) (rows : List Being) : List Being :=
  match rows.findIdx? fun b => b.entity = e, rows.getLast? with
  | some i, some last => if i + 1 = rows.length then rows.dropLast else rows.dropLast.set i last
  | _, _ => rows

/-- Takes an entity out of its table. -/
def displace (w : World) (e : Entity) : World :=
  { w with tables := w.tables.map fun t => { t with rows := leave e t.rows } }

/-- Takes a slot for a new entity. -/
def allocate (w : World) : World × Entity :=
  match w.free with
  | index :: free => ({ w with free }, ⟨index, w.generations.getD index 1⟩)
  | [] => ({ w with generations := w.generations ++ [1] }, ⟨w.generations.length, 1⟩)

/-- Adds an entity. -/
def spawn (w : World) (name : Option String) (behaviours : Option (List Instance)) : World × Entity :=
  let (w, e) := w.allocate
  (w.place ⟨e, name, behaviours⟩, e)

/-- Removes an entity with all that there is to it, and says whether it was alive. -/
def despawn (w : World) (e : Entity) : World × Bool :=
  if w.contains e then
    let w := w.displace e
    ({ w with generations := w.generations.set e.index (e.generation + 1), free := e.index :: w.free }, true)
  else (w, false)

/-! ## Section 3 - behaviours -/

/-- Changes the entities without moving them. -/
def mapBeings (w : World) (f : Being → Being) : World :=
  { w with tables := w.tables.map fun t => { t with rows := t.rows.map f } }

/-- Gives an entity one more instance. An entity that carried none so far moves to another table. -/
def addInstance (w : World) (e : Entity) (i : Instance) : World :=
  match w.being? e with
  | none => w
  | some b =>
    match b.behaviours with
    | some _ =>
      w.mapBeings fun b => if b.entity = e then { b with behaviours := b.behaviours.map (· ++ [i]) } else b
    | none => (w.displace e).place { b with behaviours := some [i] }

/-- Takes an instance from an entity. -/
def removeInstance (w : World) (r : InstanceRef) : World :=
  w.mapBeings fun b =>
    if b.entity = r.entity then
      { b with behaviours := b.behaviours.map fun is => is.filter fun i => i.id ≠ r.id }
    else b

end World

end HotReload
