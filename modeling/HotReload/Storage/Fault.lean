/-! # Faults of the storage

Why a path could not be read or changed, with the words of the system for it.
-/

namespace HotReload

/-- Why an access to the storage failed. -/
inductive IoFault where
  /-- A component of the path does not exist. -/
  | notFound
  /-- Something other than a folder stands where a folder is needed. -/
  | notFolder
  /-- A folder stands where a file is needed. -/
  | isFolder
  /-- The path runs through more links than are followed. -/
  | tooManyLinks
  /-- The bytes of a file are not the encoding of a text. -/
  | notText
  /-- Any other reason, in words. -/
  | other (text : String)
  deriving DecidableEq, Repr, Inhabited

/-- The words for a fault. -/
def IoFault.message : IoFault → String
  | .notFound => "No such file or directory (os error 2)"
  | .notFolder => "Not a directory (os error 20)"
  | .isFolder => "Is a directory (os error 21)"
  | .tooManyLinks => "Too many levels of symbolic links (os error 40)"
  | .notText => "stream did not contain valid UTF-8"
  | .other text => text

end HotReload
