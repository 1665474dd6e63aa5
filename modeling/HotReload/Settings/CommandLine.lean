import HotReload.Settings.Settings

/-! # The command line

A command line is a list of pairs of a flag and a value. It says where the settings are and what overrides them; of two
pairs with one flag the later counts. The first pair that makes no sense is the fault of the whole line.
-/

namespace HotReload

/-! ## Section 1 - values -/

/-- Why a text is no number. -/
inductive NumberFault where
  | empty
  | badDigit
  | tooLarge
  deriving DecidableEq, Repr, Inhabited

/-- The words for a fault. -/
def NumberFault.message : NumberFault → String
  | .empty => "cannot parse integer from empty string"
  | .badDigit => "invalid digit found in string"
  | .tooLarge => "number too large to fit in target type"

/-- Reads digits after a number, as long as it stays at or below the greatest that can be read. -/
def readDigits (n : Nat) : List Char → Except NumberFault Nat
  | [] => .ok n
  | c :: rest =>
    if !c.isDigit then .error .badDigit
    else
      let sum := n * 10 + (c.toNat - '0'.toNat)
      if sum ≤ Document.maxNatural then readDigits sum rest else .error .tooLarge

/-- Reads a count, with or without a plus sign. -/
def readCount (s : String) : Except NumberFault Nat :=
  match s.toList with
  | [] => .error .empty
  | ['+'] => .error .badDigit
  | '+' :: digits => readDigits 0 digits
  | digits => readDigits 0 digits

/-- Reads a switch. -/
def readSwitch (s : String) : Option Bool :=
  if s ∈ ["1", "true", "on", "yes"] then some true
  else if s ∈ ["0", "false", "off", "no"] then some false
  else none

/-! ## Section 2 - flags -/

/-- Why a command line makes no sense. -/
inductive CommandFault where
  | notAFlag (argument : String)
  | missingValue (flag : String)
  | unknownFlag (flag : String)
  | badTicks (value : String) (reason : NumberFault)
  /-- The value is shown in small letters. -/
  | badSwitch (name value : String)
  deriving DecidableEq, Repr, Inhabited

namespace CommandFault

/-- What is wrong. -/
def message : CommandFault → String
  | notAFlag argument => s!"Unexpected argument '{argument}'. Flags take the form --name value."
  | missingValue flag => s!"Expected a value after '{flag}'"
  | unknownFlag flag =>
    s!"Unknown flag '{flag}'. Supported flags: --config, --script-root, --ticks, --log-warnings, --hot-reload."
  | badTicks value _ => s!"Invalid tick count '{value}'"
  | badSwitch name value => s!"Invalid {name} value '{value}'. Use on/off or true/false."

/-- What is wrong and why, in one line. -/
def chain (f : CommandFault) : String :=
  match f with
  | badTicks _ reason => s!"{f.message}: {reason.message}"
  | _ => f.message

end CommandFault

/-- What a command line says. -/
structure Invocation where
  /-- Where the settings are, if it is said. -/
  config : Option Path := none
  overrides : Overrides := {}
  deriving DecidableEq, Repr, Inhabited

namespace Invocation

/-- Where the settings are. -/
def configPath (i : Invocation) : Path := i.config.getD ⟨"assets/config.json"⟩

/-- The switch that the value of a flag stands for. -/
def switchOf (name value : String) : Except CommandFault Bool :=
  let value := value.toLower
  match readSwitch value with
  | some b => .ok b
  | none => .error (.badSwitch name value)

/-- Takes in one pair of a flag and its value. -/
def take (i : Invocation) (flag value : String) : Except CommandFault Invocation :=
  match flag with
  | "--config" => .ok { i with config := some ⟨value⟩ }
  | "--script-root" => .ok { i with overrides := { i.overrides with scriptRoot := some ⟨value⟩ } }
  | "--ticks" =>
    match readCount value with
    | .ok n => .ok { i with overrides := { i.overrides with ticks := some n } }
    | .error reason => .error (.badTicks value reason)
  | "--log-warnings" =>
    (switchOf "log-warnings" value).map fun b => { i with overrides := { i.overrides with logWarnings := some b } }
  | "--hot-reload" =>
    (switchOf "hot-reload" value).map fun b => { i with overrides := { i.overrides with hotReload := some b } }
  | _ => .error (.unknownFlag flag)

/-- Whether an argument has the form of a flag. -/
def isFlag (argument : String) : Bool := "--".toList.isPrefixOf argument.toList

/-- Takes in the arguments pair by pair. -/
def takeAll (i : Invocation) : List String → Except CommandFault Invocation
  | [] => .ok i
  | [flag] => .error (if isFlag flag then .missingValue flag else .notAFlag flag)
  | flag :: value :: rest =>
    if isFlag flag then
      match i.take flag value with
      | .ok i => i.takeAll rest
      | .error fault => .error fault
    else .error (.notAFlag flag)

/-- What a command line says, after the name of the program. -/
def parse (arguments : List String) : Except CommandFault Invocation := takeAll {} (arguments.drop 1)

end Invocation

end HotReload
