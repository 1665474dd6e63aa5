import HotReload.Script.Registry

/-! # Script groups

A group holds the scripts of one entity. Every script counts once in a group, by whatever spellings it is listed, and is
used once by it. Identities that cannot be loaded are reported and left out.
-/

namespace HotReload

/-- The scripts of one entity. -/
structure ScriptGroup where
  entity : Entity
  /-- The scripts, each with the identity it was listed by and the key of its entry. -/
  scripts : List (String × Path) := []
  /-- The identities that could not be loaded. -/
  unresolved : List String := []
  deriving Inhabited

/-- What becomes of the entity of a group when the group is taken down. -/
inductive TeardownPolicy where
  /-- It keeps its instances. -/
  | keepAttachments
  /-- It is detached from every script of the group. -/
  | detachEntity
  deriving DecidableEq, Repr

instance : Inhabited TeardownPolicy := ⟨.keepAttachments⟩

namespace ScriptGroup

variable {η : Type} [Host η]

/-- Whether a group holds the script of a key. -/
def holds (g : ScriptGroup) (key : Path) : Bool := g.scripts.any fun s => s.2.Same key

/-- The identities of a group, in order. -/
def identities (g : ScriptGroup) : List String := g.scripts.map Prod.fst

/-- The keys of the scripts of a group, in order. -/
def keys (g : ScriptGroup) : List Path := g.scripts.map Prod.snd

/-- Takes one more identity into a group. Another spelling of a script that the group holds is given up at once. A
script whose host refuses the entity still belongs to the group. -/
def add (w : Workspace η) (r : Registry) (g : ScriptGroup) (identity : String) :
    Workspace η × Registry × ScriptGroup :=
  match r.resolve w identity with
  | (w, r, .ok key) =>
    if g.holds key then (w, (r.release w.files identity).1, g)
    else
      let (w, r, _) := r.visit w key fun w s => s.attach w g.entity
      (w, r, { g with scripts := g.scripts ++ [(identity, key)] })
  | (w, r, .error error) =>
    (w.say (.error s!"'{identity}' could not be loaded: {error.message}"), r,
      { g with unresolved := g.unresolved ++ [identity] })

/-- Takes identities into a group one after the other. -/
def addEach (w : Workspace η) (r : Registry) (g : ScriptGroup) : List String → Workspace η × Registry × ScriptGroup
  | [] => (w, r, g)
  | identity :: rest =>
    let (w, r, g) := add w r g identity
    addEach w r g rest

/-- The group of an entity with a list of identities. -/
def form (w : Workspace η) (r : Registry) (e : Entity) (identities : List String) :
    Workspace η × Registry × ScriptGroup :=
  addEach w r { entity := e } identities

/-- Lets the scripts of a group answer their changes. Says how many had any. -/
def poll (w : Workspace η) (r : Registry) (g : ScriptGroup) : Workspace η × Registry × Nat :=
  r.updateEach w g.keys

/-- Gives up scripts one after the other, each with the identity it was listed by. -/
def releaseEach (w : Workspace η) (r : Registry) (e : Entity) (policy : TeardownPolicy) :
    List (String × Path) → Workspace η × Registry
  | [] => (w, r)
  | (identity, key) :: rest =>
    let (w, r) :=
      match policy with
      | .detachEntity =>
        let (w, r, _) := r.visit w key fun w s => s.detach w e
        (w, r)
      | .keepAttachments => (w, r)
    releaseEach w (r.release w.files identity).1 e policy rest

/-- Takes a group down: all its scripts are given up. -/
def teardown (w : Workspace η) (r : Registry) (g : ScriptGroup) (policy : TeardownPolicy) :
    Workspace η × Registry :=
  releaseEach w r g.entity policy g.scripts

end ScriptGroup

end HotReload
