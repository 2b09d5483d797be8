/-
  Reading the arguments of a command.

  An argument is a long option `--name` or `--name=value`, a cluster of short
  options `-pv` whose last one may carry its value, a value that an option waits
  for, or the formula; behind `--` there are formulas only (`Reading.step`).
  The first fault in the order of the arguments is reported.  A value that
  follows its option is checked when the next option or formula is met, so an
  unknown option right behind it is reported first.

  * `Settings.ofArguments` reads all arguments of a command.
-/
import ProductFormula.CommandLine.Settings

namespace ProductFormula.CommandLine

/-- Settings, and the option met last as long as it is not settled: still
    without a value, or with one that is not checked. -/
structure Reading where
  settings : Settings := {}
  waiting : Option (Flag × Option String) := none
  /-- Behind `--`. -/
  onlyFormula : Bool := false

namespace Reading

/-- The reading with the last option settled. -/
def settle (r : Reading) : Except UsageError Reading :=
  match r.waiting with
  | none => .ok r
  | some (flag, none) => .error (.missingValue flag)
  | some (flag, some value) => do
    let settings ← r.settings.accept flag value
    return { r with settings, waiting := none }

/-- An option with its value in the same argument, or without need of one. -/
def give (r : Reading) (flag : Flag) (value : String) : Except UsageError Reading := do
  let r ← r.settle
  let settings ← r.settings.accept flag value
  return { r with settings }

/-- An option that waits for its value. -/
def await (r : Reading) (flag : Flag) : Except UsageError Reading := do
  let r ← r.settle
  return { r with waiting := some (flag, none) }

/-- A long option, with what stands behind its equals sign if there is one. -/
def long (known : List Flag) (r : Reading) (name : List Char) (value : Option String) :
    Except UsageError Reading :=
  match known.find? fun flag => flag.long.toList = name with
  | none => .error (.unexpectedArgument ("--" ++ .ofList name))
  | some flag =>
    match flag.takesValue, value with
    | true, some value => r.give flag value
    | true, none => r.await flag
    | false, some value => .error (.unneededValue flag value)
    | false, none => r.give flag ""

/-- What is attached to a short option, an equals sign in front left out. -/
def attached : List Char → List Char
  | '=' :: value => value
  | value => value

/-- A cluster of short options: one that takes a value takes what is left of the
    cluster, or waits. -/
def shorts (known : List Flag) (r : Reading) : List Char → Except UsageError Reading
  | [] => .ok r
  | c :: cs =>
    match known.find? fun flag => flag.short? = some c with
    | none => .error (.unexpectedArgument (.ofList ['-', c]))
    | some flag =>
      if flag.takesValue then
        if cs = [] then r.await flag else r.give flag (.ofList (attached cs))
      else do
        let r ← r.give flag ""
        shorts known r cs

/-- A formula; there is one at most. -/
def formula (r : Reading) (argument : String) : Except UsageError Reading :=
  if r.settings.formula.isSome then
    .error (.unexpectedArgument argument)
  else do
    let r ← r.settle
    return { r with settings := { r.settings with formula := argument } }

/-- An argument that is no option: a value that is waited for, or a formula. -/
def plain (r : Reading) (argument : String) : Except UsageError Reading :=
  match r.waiting with
  | some (flag, none) => .ok { r with waiting := some (flag, some argument) }
  | _ => r.formula argument

/-- One argument more; a lone minus sign is no option. -/
def step (known : List Flag) (r : Reading) (argument : String) : Except UsageError Reading :=
  if r.onlyFormula then
    r.formula argument
  else
    match argument.toList with
    | ['-', '-'] => .ok { r with onlyFormula := true }
    | '-' :: '-' :: option =>
      match Text.splitWhile (· != '=') option with
      | (name, _ :: value) => r.long known name (some (.ofList value))
      | (name, []) => r.long known name none
    | '-' :: c :: cs => r.shorts known (c :: cs)
    | _ => r.plain argument

/-- Arguments from first to last. -/
def steps (known : List Flag) (r : Reading) : List String → Except UsageError Reading
  | [] => .ok r
  | argument :: rest => do
    let r ← r.step known argument
    steps known r rest

end Reading

/-- The settings that the arguments of a command with these options give; a
    formula and a file exclude each other. -/
def Settings.ofArguments (known : List Flag) (arguments : List String) :
    Except UsageError Settings := do
  let r ← Reading.steps known {} arguments
  let r ← r.settle
  if r.settings.formula.isSome && r.settings.file.isSome then .error .formulaAndFile
  else return r.settings

end ProductFormula.CommandLine
