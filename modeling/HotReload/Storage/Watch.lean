import HotReload.Storage.Change

/-! # Watches

A watch raises a signal when one file changes. It observes the folder that the file was in when the watch started,
so that a file which is saved under another name and then renamed counts as changed too. The signal says that a change
is owed an answer: many raises before an answer are one.
-/

namespace HotReload

/-! ## Section 1 - signals -/

/-- Whether a change is owed an answer. -/
structure Signal where
  raised : Bool := false
  deriving DecidableEq, Repr, Inhabited

namespace Signal

/-- Reports a change. -/
def raise (_ : Signal) : Signal := ⟨true⟩

/-- Takes the report, if there is one, and says whether there was. -/
def take (s : Signal) : Signal × Bool := (⟨false⟩, s.raised)

@[simp] theorem raised_raise (s : Signal) : s.raise.raised = true := rfl

@[simp] theorem raised_take (s : Signal) : s.take.1.raised = false := rfl

@[simp] theorem take_snd (s : Signal) : s.take.2 = s.raised := rfl

@[simp] theorem raise_raise (s : Signal) : s.raise.raise = s.raise := rfl

end Signal

/-! ## Section 2 - watches -/

/-- Why a file cannot be watched. -/
inductive WatchFault where
  /-- The root is in no folder. -/
  | noFolder (target : Path)
  | missingFolder (folder : Path)
  deriving DecidableEq, Repr, Inhabited

/-- The words for a fault. -/
def WatchFault.message : WatchFault → String
  | .noFolder target => s!"'{target.text}' has no parent directory to watch"
  | .missingFolder folder => s!"directory '{folder.text}' does not exist"

/-- A watch on one file. -/
structure Watch where
  /-- The file that is watched. -/
  target : Path
  /-- The name of the folder that is observed. -/
  directory : Path
  /-- The folder itself, which may have moved since. -/
  folder : Nat
  deriving DecidableEq, Repr, Inhabited

namespace Watch

/-- Starts to watch the file that a path names. -/
def start (f : Files) (p : Path) : Except WatchFault Watch :=
  let target := f.normalize p
  match target.parent? with
  | none => .error (.noFolder target)
  | some directory =>
    match f.resolve directory with
    | .error _ => .error (.missingFolder directory)
    | .ok location =>
      match f.folder? location with
      | none => .error (.missingFolder directory)
      | some folder => .ok ⟨target, directory, folder⟩

/-- Whether a touch is a change of the watched file: it names the file, or something that now leads to it. -/
def sees (w : Watch) (f : Files) (t : Touch) : Bool :=
  let p := w.directory.join ⟨t.name⟩
  t.folder = w.folder ∧ (p.Same w.target ∨ (f.normalize p).Same w.target)

end Watch

end HotReload
