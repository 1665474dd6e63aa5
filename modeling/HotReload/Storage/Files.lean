import HotReload.Storage.Fault
import HotReload.Storage.Path

/-! # Files

A tree of folders, files and links. A place in the tree is the list of names that leads to it from the root;
it is reached by no other list, while many paths may lead to it. Following a path means to walk along its pieces, into
the target of every link on the way.
-/

namespace HotReload

/-- A place in the tree: the names from the root down to it. -/
abbrev Location := List String

/-- What may stand at a location. -/
inductive Entry where
  | file (content : ByteArray)
  /-- A link stands for the path that it holds, seen from the folder of the link. -/
  | link (target : Path)
  /-- Every folder that was ever made has a number of its own. -/
  | folder (id : Nat)
  deriving Inhabited

/-- A tree of folders, files and links. -/
structure Files where
  /-- The folder that relative paths start from. -/
  home : Location := []
  /-- What stands where. The root is a folder without an entry. -/
  entries : List (Location × Entry) := []
  /-- The number of the next folder. -/
  nextFolder : Nat := 1
  deriving Inhabited

/-- Where a path leads. -/
inductive Site where
  /-- To something that exists. -/
  | present (location : Location)
  /-- To a name that is free in a folder that exists. -/
  | vacant (folder : Location) (name : String)
  deriving DecidableEq, Repr, Inhabited

namespace Files

/-! ## Section 1 - the tree -/

/-- What stands at a location. -/
def entry? (f : Files) (at_ : Location) : Option Entry :=
  if at_ = [] then some (.folder 0) else f.entries.lookup at_

/-- The number of the folder at a location. -/
def folder? (f : Files) (at_ : Location) : Option Nat :=
  match f.entry? at_ with
  | some (.folder id) => some id
  | _ => none

/-- Puts an entry at a location, in place of what stands there. -/
def put (f : Files) (at_ : Location) (entry : Entry) : Files :=
  { f with entries := (at_, entry) :: f.entries.filter fun e => e.1 ≠ at_ }

/-- Takes away a location with everything below it. -/
def prune (f : Files) (at_ : Location) : Files :=
  { f with entries := f.entries.filter fun e => !at_.isPrefixOf e.1 }

/-- Whether nothing stands below a location. -/
def isBare (f : Files) (at_ : Location) : Bool :=
  f.entries.all fun e => e.1 = at_ || !at_.isPrefixOf e.1

/-! ## Section 2 - following paths -/

/-- How many links a path may run through. -/
def maxLinks : Nat := 40

/-- Walks along the pieces of a path. A link at the end of the path is followed only on demand; a link on the way
always is. -/
def walk (f : Files) (follow : Bool) (links : Nat) (here : Location) : List String → Except IoFault Site
  | [] => .ok (.present here)
  | piece :: rest =>
    match f.entry? here with
    | some (.folder _) =>
      if Path.isIdle piece then walk f follow links here rest
      else if piece = ".." then walk f follow links here.dropLast rest
      else
        match f.entry? (here ++ [piece]) with
        | none => if rest = [] then .ok (.vacant here piece) else .error .notFound
        | some (.link target) =>
          if rest = [] ∧ !follow then .ok (.present (here ++ [piece]))
          else if target.text = "" then .error .notFound
          else
            match links with
            | 0 => .error .tooManyLinks
            | links + 1 =>
              -- a relative target is seen from the folder of the link, which is where the walk stands
              walk f follow links (if target.isAbsolute then [] else here) (target.pieces ++ rest)
        | some _ => walk f follow links (here ++ [piece]) rest
    | _ => .error .notFolder
  termination_by pieces => (links, pieces.length)

/-- Where a path leads, through a link at its end as well if `follow` says so. -/
def locate (f : Files) (follow : Bool) (p : Path) : Except IoFault Site :=
  if p.text = "" then .error .notFound
  else f.walk follow maxLinks (if p.isAbsolute then [] else f.home) p.pieces

/-- The location that a path leads to through all links, if something stands there. -/
def resolve (f : Files) (p : Path) : Except IoFault Location :=
  match f.locate true p with
  | .ok (.present location) => .ok location
  | .ok (.vacant ..) => .error .notFound
  | .error fault => .error fault

/-- Whether a path leads to a folder. -/
def isFolder (f : Files) (p : Path) : Bool :=
  match f.resolve p with
  | .ok location => (f.folder? location).isSome
  | .error _ => false

/-! ## Section 3 - reading -/

/-- The content of the file that a path leads to. -/
def readBytes (f : Files) (p : Path) : Except IoFault ByteArray :=
  match f.resolve p with
  | .ok location =>
    match f.entry? location with
    | some (.file content) => .ok content
    | some (.folder _) => .error .isFolder
    | _ => .error .notFound
  | .error fault => .error fault

/-- The text of the file that a path leads to. -/
def readText (f : Files) (p : Path) : Except IoFault String :=
  match f.readBytes p with
  | .ok content =>
    match String.fromUTF8? content with
    | some text => .ok text
    | none => .error .notText
  | .error fault => .error fault

/-! ## Section 4 - the names of places -/

/-- The one path to a location that runs through no link and holds no idle piece. -/
def canonical (location : Location) : Path := ⟨"/" ++ String.intercalate "/" location⟩

/-- The path that leads to the same place from anywhere. -/
def absolute (f : Files) (p : Path) : Path :=
  if p.isAbsolute then p else (canonical f.home).join p

/-- The name under which a path is known: that of the place it leads to. Where it leads nowhere, its last name is
kept below the place that its parent leads to, and where that leads nowhere too, the absolute path. -/
def normalize (f : Files) (p : Path) : Path :=
  let whole := f.absolute p
  match f.resolve whole with
  | .ok location => canonical location
  | .error _ =>
    match whole.parent? with
    | none => whole
    | some parent =>
      match f.resolve parent with
      | .error _ => whole
      | .ok location =>
        match whole.fileName? with
        | some name => (canonical location).join ⟨name⟩
        | none => canonical location

end Files

end HotReload
