import HotReload.Body.Syntax

/-! # The words of bodies

A body is read word by word. Words with a fixed spelling, punctuation and keywords alike, are `sign`s;
a spelling that the language keeps for itself without giving it a meaning is `reserved`, and
what is no word at all is `bad`.
-/

namespace HotReload.Body

/-- Why a run of characters is no word. -/
inductive LexFault where
  | unexpected (text : String)
  | openString
  | malformedNumber (text : String)
  | malformedChar (text : String)
  | malformedEscape (text : String)
  | malformedName (text : String)
  /-- A sign of another language, with the advice for it. -/
  | improper (advice : String)
  deriving DecidableEq, Repr, Inhabited

/-- The wording of a fault. -/
def LexFault.message : LexFault → String
  | .unexpected t => s!"Unexpected '{t}'"
  | .openString => "Open string is not terminated"
  | .malformedNumber t => s!"Invalid number: '{t}'"
  | .malformedChar t => s!"Invalid character: '{t}'"
  | .malformedEscape t => s!"Invalid escape sequence: '{t}'"
  | .malformedName t => s!"Variable name is not proper: '{t}'"
  | .improper advice => advice

/-- A word. -/
inductive Token where
  | name (s : String)
  | int (n : Int)
  | float (x : Float)
  | char (c : Char)
  | string (s : String)
  /-- The part of a text before an expression inside it. -/
  | openText (s : String)
  | sign (s : String)
  | reserved (s : String)
  | bad (fault : LexFault)
  /-- The end of the body. -/
  | eof
  deriving Repr, Inhabited

/-- A word with the place of its first character. -/
structure Lexeme where
  token : Token
  place : Place
  deriving Repr, Inhabited

/-- The spelling of a word in messages. -/
def Token.spelling : Token → String
  | .name s | .sign s | .reserved s => s
  | .int n => toString n
  | .float _ => "number"
  | .char c => s!"'{c}'"
  | .string s | .openText s => s!"\"{s}\""
  | .bad fault => fault.message
  | .eof => "\x7bEOF\x7d"

/-- The keywords that have a meaning. -/
def keywords : List String :=
  ["true", "false", "let", "const", "if", "else", "while", "loop", "for", "in", "break", "continue",
   "fn", "return", "throw", "do", "until", "switch", "_", "try", "catch", "private", "import", "export", "as"]

/-- The words and signs that are kept for later or for other uses. -/
def reservedWords : List String :=
  ["abstract", "async", "await", "call", "case", "curry", "debug", "default", "each", "eval", "exit",
   "Fn", "global", "go", "goto", "is", "is_def_fn", "is_def_var", "is_shared", "match", "module",
   "new", "nil", "null", "package", "print", "protected", "public", "shared", "spawn", "static",
   "super", "sync", "then", "this", "thread", "type_of", "unless", "use", "var", "void", "with", "yield"]

/-- The reserved words that may be called like functions. -/
def callableWords : List String :=
  ["call", "curry", "debug", "eval", "Fn", "is_def_fn", "is_def_var", "is_shared", "print", "type_of"]

/-- The reserved words that may be called like methods. -/
def methodWords : List String := ["call", "curry", "is_shared", "type_of"]

/-- Whether a character may begin a name. -/
def isNameStart (c : Char) : Bool := c.isAlpha || c = '_'

/-- Whether a character may stand inside a name. -/
def isNamePart (c : Char) : Bool := c.isAlphanum || c = '_'

/-- Whether a word has the form of a name: name characters, the first other than an underscore being a letter. -/
def isName (s : String) : Bool :=
  s.toList.all isNamePart &&
    match s.toList.dropWhile (· = '_') with
    | [] => false
    | c :: _ => c.isAlpha

/-- The advice for signs of other languages. -/
def foreignAdvice? : String → Option String
  | "===" => some "'===' is not a valid operator. This is not JavaScript! Should it be '=='?"
  | "!==" => some "'!==' is not a valid operator. This is not JavaScript! Should it be '!='?"
  | _ => none

/-- The signs of punctuation, longer before shorter. -/
def signs : List String :=
  ["**=", "..=", "<<=", ">>=", "#\x7b", "&&", "||", "==", "!=", "<=", ">=", "+=", "-=", "*=", "/=",
   "%=", "**", "..", "=>", "::", "<<", ">>", "|=", "&=", "^=", "??", "?.", "?[", "+", "-", "*", "/", "%", "=",
   "<", ">", "!", "|", "&", "^", ";", ",", ".", ":", "(", ")", "[", "]", "\x7b", "\x7d"]

/-- The signs that are reserved, longer before shorter. -/
def reservedSigns : List String :=
  ["# \x7b", "===", "!==", "...", "::<", "->", "<-", "++", "--", ":=", ":;", "(*", "*)", "#!", "!.",
   "#", "~", "@", "$", "?"]

/-- Whether a minus after this word is the sign of a number rather than a difference. -/
def Token.precedesNumber : Token → Bool
  | .sign s => !(s = ")" || s = "]" || s = "\x7d" || s = "true" || s = "false")
  | .bad _ => true
  | _ => false

end HotReload.Body
