/-
  The commands.

  * `eval` calculates a formula and prints its record as JSON;
  * `tokens` prints the pieces of a formula, one on a line;
  * `check` prints the hints about its brackets, or `ok`;
  * `--version` in the place of a command prints the version.

  A command reads its formula and its files through `Inputs` and says what is
  printed and with which status the program ends (`Command.run`); it does
  nothing else, so it can be run on real files as well as on given ones.
-/
import ProductFormula.CommandLine.Arguments
import ProductFormula.Highlight
import ProductFormula.Json.Reader
import ProductFormula.Text.Escape

namespace ProductFormula.CommandLine

/-! ## Commands -/

/-- Where a formula comes from. -/
inductive Source where
  | text (formula : String)
  | standardInput
  | file (path : String)
deriving DecidableEq

/-- A file, or the formula given, where `-` and none at all mean the standard
    input. -/
def Settings.source (settings : Settings) : Source :=
  match settings.file, settings.formula with
  | some path, _ => .file path
  | none, some "-" => .standardInput
  | none, none => .standardInput
  | none, some formula => .text formula

inductive Command where
  | eval (source : Source) (bindings : List Binding) (varsFile : Option String)
      (options : Options) (layout : Json.Layout)
  | tokens (source : Source) (whitespace : Bool)
  | check (source : Source)
  | version

def evalFlags : List Flag := [.file, .var, .vars, .maxDepth, .keepDots, .pretty]

def tokensFlags : List Flag := [.file, .whitespace]

def checkFlags : List Flag := [.file]

namespace Command

def ofEvalSettings (s : Settings) : Command :=
  .eval s.source s.bindings s.varsFile
    { maxDepth := s.maxDepth.getD Expr.defaultDepth, stripDots := !s.keepDots }
    (if s.pretty then .indented else .compact)

/-- `--version`, or a cluster of short options that starts with `V`. -/
def asksVersion (name : String) : Bool :=
  name == "--version" || ['-', 'V'].isPrefixOf name.toList

/-- The command with this name and these arguments. -/
def named (name : String) (arguments : List String) : Except UsageError Command :=
  if name = "eval" ∨ name = "calc" then
    (Settings.ofArguments evalFlags arguments).map ofEvalSettings
  else if name = "tokens" then
    (Settings.ofArguments tokensFlags arguments).map fun s => .tokens s.source s.whitespace
  else if name = "check" then
    (Settings.ofArguments checkFlags arguments).map fun s => .check s.source
  else if asksVersion name then
    .ok .version
  else if name.toList.head? = some '-' then
    .error (.unexpectedArgument name)
  else
    .error (.unknownCommand name)

/-- The command that a command line asks for. -/
def ofCommandLine : List String → Except UsageError Command
  | [] => .error .missingCommand
  | name :: arguments => named name arguments

end Command

/-! ## Running -/

/-- Ways to read a file, which may fail, and the standard input. -/
structure Inputs (m : Type → Type) where
  file : String → m (Option String)
  standardInput : m String

/-- Why a command could not do its work. -/
inductive Failure where
  | unreadable (path : String)
  | notVariables (path : String)
deriving DecidableEq

def Failure.message : Failure → String
  | unreadable path => "Error: Failed to read '" ++ path ++ "'"
  | notVariables path => "Error: '" ++ path ++ "' is not a JSON object of variables"

/-- What is printed, and the status at the end. -/
structure Printed where
  status : Nat
  text : String
deriving DecidableEq

/-- The status of a calculation that failed and of brackets that do not
    balance. -/
def failureStatus : Nat := 2

/-- A line for each text. -/
def lines (texts : List String) : String := .join (texts.map fun text => text ++ "\n")

def printEval (layout : Json.Layout) (r : Record) : Printed where
  status := if r.isOk then 0 else failureStatus
  text := lines [.ofList (Json.ofRecord layout r)]

/-- The kind of a piece, a tab, and its text on one line. -/
def spanLine (span : Highlight.Span) : String := span.kind.label ++ "\t" ++ Text.escape span.text

def printTokens (whitespace : Bool) (formula : String) : Printed where
  status := 0
  text :=
    lines (((highlight formula).filter fun span => whitespace || span.kind ≠ .whitespace).map
      spanLine)

def printCheck (formula : String) : Printed :=
  match bracketHints formula with
  | [] => ⟨0, lines ["ok"]⟩
  | hints => ⟨failureStatus, lines hints⟩

def printVersion : Printed := ⟨0, lines ["asmcalc 0.1.0"]⟩

variable {m : Type → Type} [Monad m]

/-- The content of a file. -/
def Inputs.read (inputs : Inputs m) (path : String) : ExceptT Failure m String := do
  match ← inputs.file path with
  | some content => return content
  | none => throw (.unreadable path)

def Inputs.formula (inputs : Inputs m) : Source → ExceptT Failure m String
  | .text formula => return formula
  | .standardInput => inputs.standardInput
  | .file path => inputs.read path

/-- The variables of a file; none without one. -/
def Inputs.environment (inputs : Inputs m) : Option String → ExceptT Failure m Environment
  | none => return .empty
  | some path => do
    let content ← inputs.read path
    match Json.environment? content.toList with
    | some env => return env
    | none => throw (.notVariables path)

/-- What a command prints; variables given as arguments go over those of a
    file. -/
def Command.run (inputs : Inputs m) : Command → ExceptT Failure m Printed
  | .eval source bindings varsFile options layout => do
    let formula ← inputs.formula source
    let env ← inputs.environment varsFile
    return printEval layout (calculate options formula (env.setAll bindings)).record
  | .tokens source whitespace => do
    let formula ← inputs.formula source
    return printTokens whitespace formula
  | .check source => do
    let formula ← inputs.formula source
    return printCheck formula
  | .version => return printVersion

/-- How a command line ends. -/
inductive Outcome where
  | refused (error : UsageError)
  | failed (failure : Failure)
  | printed (printed : Printed)
deriving DecidableEq

/-- The outcome of a command line. -/
def runArguments (inputs : Inputs m) (arguments : List String) : m Outcome := do
  match Command.ofCommandLine arguments with
  | .error e => return .refused e
  | .ok command =>
    match ← (command.run inputs).run with
    | .ok printed => return .printed printed
    | .error failure => return .failed failure

end ProductFormula.CommandLine
