/-
  What the options of a command say.

  Every option has a long name, some a short one, and some take a value
  (`Flag`).  The values given are checked one after the other and gathered
  (`Settings.accept`): only variables may be given more than once.

  * `Binding.ofArgument` reads `NAME=VALUE`;
  * `depthOf` reads a nesting limit of 64 bits.
-/
import ProductFormula.Calculation
import ProductFormula.Text.ControlSequence

namespace ProductFormula.CommandLine

/-! ## Options -/

inductive Flag where
  | file
  | var
  | vars
  | maxDepth
  | keepDots
  | pretty
  | whitespace
deriving DecidableEq

namespace Flag

def long : Flag → String
  | file => "file"
  | var => "var"
  | vars => "vars"
  | maxDepth => "max-depth"
  | keepDots => "keep-dots"
  | pretty => "pretty"
  | whitespace => "whitespace"

def short? : Flag → Option Char
  | file => some 'f'
  | var => some 'v'
  | pretty => some 'p'
  | _ => none

/-- What stands for the value in a message, if the option takes one. -/
def valueName? : Flag → Option String
  | file => some "FILE"
  | var => some "VARS"
  | vars => some "VARS_FILE"
  | maxDepth => some "MAX_DEPTH"
  | _ => none

/-- Whether the option may be given again. -/
def isRepeatable (flag : Flag) : Bool := flag = var

def takesValue (flag : Flag) : Bool := flag.valueName?.isSome

/-- The option as it is written in a message. -/
def display (flag : Flag) : String :=
  match flag.valueName? with
  | some value => "--" ++ flag.long ++ " <" ++ value ++ ">"
  | none => "--" ++ flag.long

end Flag

/-! ## Misuse -/

/-- Why a command line is refused. -/
inductive UsageError where
  | missingCommand
  | unknownCommand (name : String)
  | unexpectedArgument (argument : String)
  | missingValue (flag : Flag)
  | unneededValue (flag : Flag) (value : String)
  | repeated (flag : Flag)
  | formulaAndFile
  | invalidValue (flag : Flag) (value reason : String)
deriving DecidableEq

namespace UsageError

/-- What is wrong, as a terminal shows it. -/
def detail : UsageError → String
  | missingCommand => "a command is required"
  | unknownCommand name => "unrecognized subcommand '" ++ Text.emphasised name ++ "'"
  | unexpectedArgument argument =>
    "unexpected argument '" ++ Text.emphasised argument ++ "' found"
  | missingValue flag =>
    "a value is required for '" ++ Text.emphasised flag.display ++ "' but none was supplied"
  | unneededValue flag value =>
    "unexpected value '" ++ Text.emphasised value ++ "' for '" ++ Text.emphasised flag.display ++
      "' found; no more were expected"
  | repeated flag =>
    "the argument '" ++ Text.emphasised flag.display ++ "' cannot be used multiple times"
  | formulaAndFile =>
    "the argument '" ++ Text.emphasised "[FORMULA]" ++ "' cannot be used with '" ++
      Text.emphasised Flag.file.display ++ "'"
  | invalidValue flag value reason =>
    "invalid value '" ++ Text.emphasised value ++ "' for '" ++ Text.emphasised flag.display ++
      "': " ++ reason

/-- The whole message where there is no terminal; what was given is quoted
    without its control sequences. -/
def message (e : UsageError) : String :=
  Text.withoutSequences
    (Text.emphasised "error:" ++ " " ++ e.detail ++ "\n\nFor more information, try '" ++
      Text.emphasised "--help" ++ "'.")

end UsageError

/-! ## Values of options -/

/-- A number as an argument gives it: a decimal, or a word for one that is not
    finite in any case. -/
def numberOf? (cs : List Char) : Option Number :=
  let (negative, unsigned) := Number.splitSign cs
  let word := String.ofList (unsigned.map Char.toLower)
  if word = "inf" ∨ word = "infinity" then some (.infinite negative)
  else if word = "nan" then some .nan
  else Number.ofDecimalText? cs

/-- A boolean, a number, or else a text. -/
def valueOf (cs : List Char) : Value :=
  if cs = "true".toList then .boolean true
  else if cs = "false".toList then .boolean false
  else
    match numberOf? cs with
    | some n => .number n
    | none => .text (.ofList cs)

/-- A name and a value with an equals sign between them, both trimmed; or why it
    is none. -/
def bindingOf (argument : String) : Except String Binding :=
  match Text.splitWhile (· != '=') argument.toList with
  | (_, []) => .error ("expected NAME=VALUE, got '" ++ argument ++ "'")
  | (name, _ :: raw) =>
    let name := Text.trim name
    if name = [] then .error ("variable name is empty in '" ++ argument ++ "'")
    else .ok (.ofList name, valueOf (Text.trim raw))

/-- The greatest nesting limit. -/
def depthBound : Nat := Nat.pow 2 64 - 1

/-- The digits of a limit read on from `n`. -/
def depthDigits (n : Nat) : List Char → Except String Nat
  | [] => .ok n
  | c :: cs =>
    let next := n * 10 + (c.toNat - '0'.toNat)
    if !c.isDigit then .error "invalid digit found in string"
    else if depthBound < next then .error "number too large to fit in target type"
    else depthDigits next cs

/-- A nesting limit, with or without a plus sign; or why it is none. -/
def depthOf (argument : String) : Except String Nat :=
  match argument.toList with
  | [] => .error "cannot parse integer from empty string"
  | ['+'] => .error "invalid digit found in string"
  | '+' :: digits => depthDigits 0 digits
  | digits => depthDigits 0 digits

/-! ## Settings -/

/-- What has been given so far. -/
structure Settings where
  formula : Option String := none
  file : Option String := none
  bindings : List Binding := []
  varsFile : Option String := none
  maxDepth : Option Nat := none
  keepDots : Bool := false
  pretty : Bool := false
  whitespace : Bool := false

namespace Settings

/-- Whether an option has been given. -/
def has (settings : Settings) : Flag → Bool
  | .file => settings.file.isSome
  | .var => !settings.bindings.isEmpty
  | .vars => settings.varsFile.isSome
  | .maxDepth => settings.maxDepth.isSome
  | .keepDots => settings.keepDots
  | .pretty => settings.pretty
  | .whitespace => settings.whitespace

/-- The settings with the value of one option put in. -/
def put (settings : Settings) (flag : Flag) (value : String) : Except UsageError Settings :=
  match flag with
  | .file =>
    if value = "" then .error (.missingValue .file) else .ok { settings with file := value }
  | .vars =>
    if value = "" then .error (.missingValue .vars) else .ok { settings with varsFile := value }
  | .var =>
    match bindingOf value with
    | .ok binding => .ok { settings with bindings := settings.bindings ++ [binding] }
    | .error reason => .error (.invalidValue .var value reason)
  | .maxDepth =>
    match depthOf value with
    | .ok depth => .ok { settings with maxDepth := depth }
    | .error reason => .error (.invalidValue .maxDepth value reason)
  | .keepDots => .ok { settings with keepDots := true }
  | .pretty => .ok { settings with pretty := true }
  | .whitespace => .ok { settings with whitespace := true }

/-- The settings with one more option. -/
def accept (settings : Settings) (flag : Flag) (value : String) : Except UsageError Settings :=
  if settings.has flag && !flag.isRepeatable then .error (.repeated flag)
  else settings.put flag value

end Settings

end ProductFormula.CommandLine
