import HotReload.Report.Diagnostic
import HotReload.Text.Blank

/-! # Declarations

A unit of source is a list of declarations `class Name : Base { body }`, the base being optional.
Between their parts stand blanks, line comments and nested block comments. A body is any text whose
braces balance outside of comments, strings and character literals; what it means is no concern of
this module.
-/

namespace HotReload

/-- One declared type, with the place of its keyword and the place where its body begins. -/
structure Declaration where
  name : String
  base : Option String
  body : String
  place : Place
  bodyPlace : Place
  deriving DecidableEq, Repr, Inhabited

/-- Why a text is no unit. -/
inductive ScanFault where
  /-- A word other than the keyword begins a declaration. -/
  | notKeyword (at_ : Place) (word : String)
  /-- A character that begins no word stands between declarations. -/
  | stray (at_ : Place) (char : Char)
  | missingName (at_ : Place)
  | missingBase (at_ : Place) (name : String)
  | missingBody (at_ : Place) (name : String)
  /-- The body that opens here never closes. -/
  | openBody (at_ : Place) (name : String)
  | openComment (at_ : Place)
  | openString (at_ : Place)
  deriving DecidableEq, Repr, Inhabited

/-- A scan fault as an error of the unit. -/
def ScanFault.diagnostic : ScanFault → Diagnostic
  | .notKeyword p word => .error p s!"expected 'class' declaration, found '{word}'"
  | .stray p c => .error p s!"unexpected '{c}' outside of a class declaration"
  | .missingName p => .error p "expected a type name after 'class'"
  | .missingBase p name => .error p s!"expected a base type for '{name}' after ':'"
  | .missingBody p name => .error p s!"expected '\x7b' to open the body of '{name}'"
  | .openBody p name => .error p s!"body of '{name}' is missing its closing '\x7d'"
  | .openComment p => .error p "unterminated block comment"
  | .openString p => .error p "unterminated string literal"

/-- Whether a character may begin an identifier of a unit. -/
def isIdentStart (c : Char) : Bool := c.isAlpha || c = '_'

/-- Whether a character may stand inside an identifier of a unit. -/
def isIdentPart (c : Char) : Bool := c.isAlphanum || c = '_'

end HotReload
