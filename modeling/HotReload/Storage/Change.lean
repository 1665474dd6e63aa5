import HotReload.Storage.Files

/-! # Changes of the files

The ways in which a tree of files changes, and what a watcher of a folder gets to see of each: that a name of the
folder was made, written or moved. Removing a name shows nothing.
-/

namespace HotReload

/-- What a watcher sees of a change: a name in a folder was made, written or moved. -/
structure Touch where
  folder : Nat
  name : String
  deriving DecidableEq, Repr, Inhabited

/-- How a change went. -/
structure Change where
  files : Files
  /-- Whether the change was made. -/
  done : Bool
  /-- What watchers see of it, in order. -/
  touches : List Touch := []

namespace Files

/-- A change that is refused. -/
def refuse (f : Files) : Change := ⟨f, false, []⟩

/-- The sight of a location: its folder and its name there. -/
def touch (f : Files) (at_ : Location) : List Touch :=
  match f.folder? at_.dropLast, at_.getLast? with
  | some folder, some name => [⟨folder, name⟩]
  | _, _ => []

/-- Makes an empty folder at a free location. -/
def addFolder (f : Files) (at_ : Location) : Change :=
  ⟨{ f.put at_ (.folder f.nextFolder) with nextFolder := f.nextFolder + 1 }, true, f.touch at_⟩

/-- Makes a folder, unless the path leads to one. -/
def ensureFolder (f : Files) (p : Path) : Change :=
  match f.locate false p with
  | .ok (.vacant folder name) => f.addFolder (folder ++ [name])
  | .ok (.present _) => if f.isFolder p then ⟨f, true, []⟩ else f.refuse
  | .error _ => f.refuse

/-- Makes the folders along a path, one after the other. -/
def ensureFolders (f : Files) (walked : List String) : List String → Change
  | [] => ⟨f, true, []⟩
  | piece :: rest =>
    let walked := walked ++ [piece]
    if Path.isIdle piece then f.ensureFolders walked rest
    else
      let here := f.ensureFolder (Path.ofPieces walked)
      if here.done then
        let below := here.files.ensureFolders walked rest
        { below with touches := here.touches ++ below.touches }
      else here

/-- Makes a folder and all the folders on the way to it. -/
def makeFolder (f : Files) (p : Path) : Change := f.ensureFolders [] p.pieces

/-- Gives the file that a path leads to a content. A file that does not exist is made, with the folders on the way
to it. -/
def write (f : Files) (p : Path) (content : ByteArray) : Change :=
  let way := match p.parent? with
    | some parent => f.makeFolder parent
    | none => ⟨f, true, []⟩
  if !way.done then way
  else
    let f := way.files
    -- a link at the end is written through, to its target
    let site := match f.locate true p with
      | .ok (.vacant folder name) => some (folder ++ [name])
      | .ok (.present location) =>
        match f.entry? location with
        | some (.file _) => some location
        | _ => none
      | .error _ => none
    match site with
    | some location => ⟨f.put location (.file content), true, way.touches ++ f.touch location⟩
    | none => { way with done := false }

/-- Takes away a file or a link. -/
def remove (f : Files) (p : Path) : Change :=
  match f.locate false p with
  | .ok (.present location) =>
    match f.entry? location with
    | some (.folder _) | none => f.refuse
    | some _ => ⟨f.prune location, true, []⟩
  | _ => f.refuse

/-- Takes away a folder with everything in it, or a link. -/
def removeFolder (f : Files) (p : Path) : Change :=
  match f.locate false p with
  | .ok (.present location) =>
    match f.entry? location with
    | some (.file _) | none => f.refuse
    | some _ => if location = [] then f.refuse else ⟨f.prune location, true, []⟩
  | _ => f.refuse

/-- Puts a link to a path at a free location. -/
def link (f : Files) (p target : Path) : Change :=
  match f.locate false p with
  | .ok (.vacant folder name) =>
    let location := folder ++ [name]
    if target.text = "" then f.refuse else ⟨f.put location (.link target), true, f.touch location⟩
  | _ => f.refuse

/-- Moves what stands at one location to another, with everything below it. -/
def move (f : Files) (source target : Location) : Files :=
  let cleared := f.prune target
  { cleared with
    entries := cleared.entries.map fun (location, entry) =>
      if source.isPrefixOf location then (target ++ location.drop source.length, entry) else (location, entry) }

/-- Whether what stands at one location may take the place of what stands at another. -/
def mayReplace (f : Files) (source target : Location) : Bool :=
  match f.entry? source, f.entry? target with
  | some (.folder _), some (.folder _) => f.isBare target
  | some (.folder _), some _ => false
  | some _, some (.folder _) => false
  | some _, _ => true
  | none, _ => false

/-- Gives another path to what a path leads to. Renaming to the same place does nothing. -/
def rename (f : Files) (p target : Path) : Change :=
  match f.locate false p, f.locate false target with
  | .ok (.present source), .ok site =>
    let goal := match site with
      | .present location => location
      | .vacant folder name => folder ++ [name]
    if source = goal then ⟨f, true, []⟩
    -- a folder does not move into itself
    else if source.isPrefixOf goal ∨ !f.mayReplace source goal then f.refuse
    else ⟨f.move source goal, true, f.touch source ++ f.touch goal⟩
  | _, _ => f.refuse

/-- Brings the tree up to date with what was seen at a path: a file with some content, or no file. -/
def observe (f : Files) (p : Path) (seen : Option ByteArray) : Change :=
  match seen, f.readBytes p with
  | some content, .ok known => if content.toList = known.toList then ⟨f, true, []⟩ else f.write p content
  | some content, .error _ => f.write p content
  | none, .ok _ => f.remove p
  | none, .error _ => ⟨f, true, []⟩

end Files

end HotReload
