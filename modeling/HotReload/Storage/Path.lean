/-! # Paths

A path is a text with slashes in it. Only its components count when paths are compared: repeated and trailing
slashes are skipped, and so is every `.` that does not start the path. The text itself is kept, because messages
show a path the way it was written.
-/

namespace HotReload

/-- A path, as it was written. -/
structure Path where
  text : String
  deriving DecidableEq, Repr, Inhabited

namespace Path

/-! ## Section 1 - pieces and components -/

/-- Cuts a text at its slashes. There is one piece more than there are slashes. -/
def cut : List Char → List (List Char)
  | [] => [[]]
  | c :: cs =>
    match cut cs with
    | [] => [[c]]
    | p :: ps => if c = '/' then [] :: p :: ps else (c :: p) :: ps

/-- The text between the slashes. -/
def pieces (p : Path) : List String := (cut p.text.toList).map String.ofList

/-- Whether a piece names nothing and leads nowhere. -/
def isIdle (piece : String) : Bool := piece = "" ∨ piece = "."

/-- Whether a path starts at the root. -/
def isAbsolute (p : Path) : Bool := p.text.toList.head? = some '/'

/-- What a path consists of: the root, if it starts there, then the pieces that lead somewhere. A `.` counts where
it starts the path. -/
def components (p : Path) : List String :=
  match p.pieces with
  | [] => []
  | first :: rest =>
    let start := if p.isAbsolute then ["/"] else if first = "" then [] else [first]
    start ++ rest.filter fun piece => !isIdle piece

/-- Whether two paths have the same components. -/
def Same (p q : Path) : Prop := p.components = q.components

instance (p q : Path) : Decidable (p.Same q) := inferInstanceAs (Decidable (_ = _))

@[refl] theorem Same.refl (p : Path) : p.Same p := rfl

theorem Same.symm {p q : Path} (h : p.Same q) : q.Same p := Eq.symm h

theorem Same.trans {p q r : Path} (h : p.Same q) (k : q.Same r) : p.Same r := Eq.trans h k

/-! ## Section 2 - parts of a path -/

/-- Drops the idle pieces at the end, but never the first piece. -/
def trim : List String → List String
  | [] => []
  | first :: rest => first :: (rest.reverse.dropWhile isIdle).reverse

/-- The pieces of a path up to the last one that leads somewhere. -/
def body (p : Path) : List String := trim p.pieces

/-- The path with given pieces. A lone empty piece stands for the root. -/
def ofPieces (pieces : List String) : Path :=
  if pieces = [""] then ⟨"/"⟩ else ⟨String.intercalate "/" pieces⟩

/-- The name at the end of a path. A path that ends at the root or in `..` has none. -/
def fileName? (p : Path) : Option String :=
  match p.body.getLast? with
  | some name => if name ∈ ["", ".", ".."] then none else some name
  | none => none

/-- The path without its last component. The root and the empty path have none. -/
def parent? (p : Path) : Option Path :=
  match p.body with
  | [] => none
  | [first] => if first = "" then none else some ⟨""⟩
  | pieces => some (ofPieces (trim pieces.dropLast))

/-- One path below another. An absolute path is below no other and stays as it is. -/
def join (p q : Path) : Path :=
  if q.isAbsolute ∨ p.text = "" then q
  else if p.text.toList.getLast? = some '/' then ⟨p.text ++ q.text⟩
  else ⟨p.text ++ "/" ++ q.text⟩

/-! ## Section 3 - extensions -/

/-- A name cut at its last dot. A dot at the start of a name cuts nothing. -/
def splitExtension (name : String) : String × Option String :=
  let backwards := name.toList.reverse
  let ending := backwards.takeWhile (· ≠ '.')
  match backwards.drop ending.length with
  | _ :: stem =>
    if stem = [] then (name, none) else (String.ofList stem.reverse, some (String.ofList ending.reverse))
  | [] => (name, none)

/-- The part of the name after its last dot. -/
def extension? (p : Path) : Option String := p.fileName?.bind fun name => (splitExtension name).2

/-- The path with another extension in place of its own. A path without a name is left as it is. -/
def withExtension (p : Path) (extension : String) : Path :=
  match p.fileName? with
  | none => p
  | some name =>
    let stem := (splitExtension name).1
    ofPieces (p.body.dropLast ++ [if extension = "" then stem else stem ++ "." ++ extension])

/-- Whether a text can be an extension, which is part of a name. -/
def canExtend (extension : String) : Bool := !extension.toList.contains '/'

end Path

end HotReload
