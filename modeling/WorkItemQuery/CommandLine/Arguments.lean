import WorkItemQuery.Text

/-!
# Arguments of the command line

The first argument names a command; the others are a path and options, in any order.  Arguments
are read from left to right and the first mistake counts.  A value that stands in an argument of
its own is looked at only when the next known argument, or the end, shows that it is complete.
-/

namespace WorkItemQuery
namespace CommandLine

/-- Why arguments are refused, or answered with help alone. -/
inductive UsageError where
  | displayHelp
  | displayHelpOnMissing
  | invalidCommand
  | unknownArgument
  | invalidValue
  | valueValidation
  | tooManyValues
  | argumentConflict
deriving DecidableEq, Repr

/-- The name of a usage error. -/
def UsageError.name : UsageError → String
  | .displayHelp => "DisplayHelp"
  | .displayHelpOnMissing => "DisplayHelpOnMissingArgumentOrSubcommand"
  | .invalidCommand => "InvalidSubcommand"
  | .unknownArgument => "UnknownArgument"
  | .invalidValue => "InvalidValue"
  | .valueValidation => "ValueValidation"
  | .tooManyValues => "TooManyValues"
  | .argumentConflict => "ArgumentConflict"

/-- The commands. -/
inductive Command where
  | tokens
  | ast
  | fmt
  | check
deriving DecidableEq, Repr

/-- The name of a command. -/
def Command.name : Command → String
  | .tokens => "tokens"
  | .ast => "ast"
  | .fmt => "fmt"
  | .check => "check"

/-- The command of a name. -/
def Command.ofName? (name : String) : Option Command :=
  [Command.tokens, .ast, .fmt, .check].find? (·.name == name)

/-- When to write in colour. -/
inductive Color where
  | auto
  | always
  | never
deriving DecidableEq, Repr

/-- The name of a choice of colour. -/
def Color.name : Color → String
  | .auto => "Auto"
  | .always => "Always"
  | .never => "Never"

/-- What can be given to a command. -/
inductive Parameter where
  /-- The path of the query, the only parameter without a name. -/
  | path
  /-- The text of the query. -/
  | query
  /-- The path of a field list. -/
  | fields
  /-- How deep conditions may nest. -/
  | fuel
  /-- When to write in colour. -/
  | color
  /-- Write JSON. -/
  | json
  /-- Warnings count as errors. -/
  | strict
  /-- Show help. -/
  | help
deriving DecidableEq, Repr

namespace Parameter

/-- The parameter is given by its name alone. -/
def isFlag : Parameter → Bool
  | .json | .strict | .help => true
  | _ => false

/-- The named parameters of a command. -/
def named : Command → List Parameter
  | .tokens => [.query, .json, .help]
  | .ast => [.query, .json, .fuel, .color, .help]
  | .fmt => [.query, .fuel, .color, .help]
  | .check => [.query, .fields, .strict, .fuel, .color, .help]

/-- The long name of a parameter. -/
def long : Parameter → String
  | .path => ""
  | .query => "query"
  | .fields => "fields"
  | .fuel => "fuel"
  | .color => "color"
  | .json => "json"
  | .strict => "strict"
  | .help => "help"

/-- The short name of a parameter. -/
def short? : Parameter → Option Char
  | .query => some 'q'
  | .help => some 'h'
  | _ => none

end Parameter

/-- What the arguments of a command have given so far. -/
structure Settings where
  path? : Option String := none
  text? : Option String := none
  fields? : Option String := none
  fuel? : Option Nat := none
  color? : Option Color := none
  json : Bool := false
  strict : Bool := false
deriving DecidableEq, Repr

namespace Settings

/-- The parameter has been given. -/
def given (settings : Settings) : Parameter → Bool
  | .path => settings.path?.isSome
  | .query => settings.text?.isSome
  | .fields => settings.fields?.isSome
  | .fuel => settings.fuel?.isSome
  | .color => settings.color?.isSome
  | .json => settings.json
  | .strict => settings.strict
  | .help => false

/-- A path, which must not be empty. -/
def readPath (value : String) : Except UsageError String :=
  if value.isEmpty then .error .invalidValue else .ok value

/-- A depth, which must fit into 32 bits. -/
def readDepth (value : String) : Except UsageError Nat :=
  match Text.int64? value.toList with
  | some depth =>
    if 0 ≤ depth ∧ depth < 4294967296 then .ok depth.toNat else .error .valueValidation
  | none => .error .valueValidation

/-- A choice of colour. -/
def readColor (value : String) : Except UsageError Color :=
  match value with
  | "auto" => .ok .auto
  | "always" => .ok .always
  | "never" => .ok .never
  | _ => .error .invalidValue

/-- The settings with a parameter of a value.  A parameter must not be given twice. -/
def set (settings : Settings) (parameter : Parameter) (value : String) :
    Except UsageError Settings :=
  if settings.given parameter then .error .argumentConflict
  else
    match parameter with
    | .path => do
      let path ← readPath value
      return { settings with path? := some path }
    | .query => .ok { settings with text? := some value }
    | .fields => do
      let path ← readPath value
      return { settings with fields? := some path }
    | .fuel => do
      let depth ← readDepth value
      return { settings with fuel? := some depth }
    | .color => do
      let color ← readColor value
      return { settings with color? := some color }
    | .json => .ok { settings with json := true }
    | .strict => .ok { settings with strict := true }
    | .help => .error .displayHelp

end Settings

/-- Where reading stands: what has been given, and a parameter whose value is not complete. -/
structure Progress where
  /-- What has been given. -/
  settings : Settings := {}
  /-- A parameter with the value that it has, if it has one already. -/
  open? : Option (Parameter × Option String) := none
  /-- The path, or a first path, has been seen. -/
  hasPath : Bool := false

namespace Progress

/-- Completes the parameter that is open. -/
def close (progress : Progress) : Except UsageError Progress :=
  match progress.open? with
  | none => .ok progress
  | some (_, none) => .error .invalidValue
  | some (parameter, some value) => do
    let settings ← progress.settings.set parameter value
    return { progress with settings, open? := none }

/-- Gives a parameter its value at once. -/
def give (progress : Progress) (parameter : Parameter) (value : String) :
    Except UsageError Progress := do
  let progress ← progress.close
  let settings ← progress.settings.set parameter value
  return { progress with settings }

/-- Opens a parameter, whose value follows. -/
def await (progress : Progress) (parameter : Parameter) (value : Option String) :
    Except UsageError Progress := do
  let progress ← progress.close
  return { progress with open? := some (parameter, value) }

/-- An argument without a name: the path, which comes once. -/
def positional (progress : Progress) (argument : String) : Except UsageError Progress :=
  if progress.hasPath then .error .unknownArgument
  else do
    let progress ← progress.await .path (some argument)
    return { progress with hasPath := true }

/-- An argument by a long name, with a value behind an equals sign or without. -/
def longName (progress : Progress) (parameters : List Parameter) (body : List Char) :
    Except UsageError Progress :=
  let (name, rest) := body.span (· != '=')
  match parameters.find? (·.long.toList == name), rest with
  | none, _ => .error .unknownArgument
  | some parameter, [] =>
    if parameter.isFlag then progress.give parameter "" else progress.await parameter none
  | some parameter, _ :: value =>
    if parameter.isFlag then .error .tooManyValues
    else progress.give parameter (.ofList value)

/-- An argument by a short name, with a value behind it or without. -/
def shortName (progress : Progress) (parameters : List Parameter) (name : Char)
    (rest : List Char) : Except UsageError Progress :=
  match parameters.find? (·.short? == some name) with
  | none => .error .unknownArgument
  | some parameter =>
    if parameter.isFlag then progress.give parameter ""
    else
      match rest with
      | [] => progress.await parameter none
      | '=' :: value => progress.give parameter (.ofList value)
      | value => progress.give parameter (.ofList value)

/-- An argument that is not behind a double dash. -/
def step (progress : Progress) (parameters : List Parameter) (argument : String) :
    Except UsageError Progress :=
  match argument.toList with
  | '-' :: '-' :: body => progress.longName parameters body
  | '-' :: name :: rest => progress.shortName parameters name rest
  | _ =>
    match progress.open? with
    | some (parameter, none) =>
      .ok { progress with open? := some (parameter, some argument) }
    | _ => progress.positional argument

/-- The arguments behind a double dash, none of which has a name. -/
def positionals (progress : Progress) : List String → Except UsageError Progress
  | [] => .ok progress
  | argument :: rest => do
    let progress ← progress.positional argument
    progress.positionals rest

/-- The arguments of a command. -/
def steps (progress : Progress) (parameters : List Parameter) :
    List String → Except UsageError Progress
  | [] => .ok progress
  | "--" :: rest => progress.positionals rest
  | argument :: rest => do
    let progress ← progress.step parameters argument
    progress.steps parameters rest

end Progress

/-- What to do with a query. -/
inductive Task where
  /-- List its tokens. -/
  | tokens (json : Bool)
  /-- Show its tree. -/
  | ast (json : Bool) (fuel? : Option Nat) (color : Color)
  /-- Write it in canonical form. -/
  | fmt (fuel? : Option Nat) (color : Color)
  /-- Check it, also against a field list. -/
  | check (fields? : Option String) (strict : Bool) (fuel? : Option Nat) (color : Color)
deriving DecidableEq, Repr

/-- A command line that has been understood. -/
structure Invocation where
  /-- The path of the query; a single dash stands for the standard input. -/
  path? : Option String
  /-- The text of the query. -/
  text? : Option String
  /-- What to do with the query. -/
  task : Task
deriving DecidableEq, Repr

/-- The task of a command. -/
def Settings.task (settings : Settings) : Command → Task
  | .tokens => .tokens settings.json
  | .ast => .ast settings.json settings.fuel? (settings.color?.getD .auto)
  | .fmt => .fmt settings.fuel? (settings.color?.getD .auto)
  | .check =>
    .check settings.fields? settings.strict settings.fuel? (settings.color?.getD .auto)

/-- Reads the arguments of a command.  The query comes from a path or from a text, not from
both. -/
def parseCommand (command : Command) (arguments : List String) : Except UsageError Invocation := do
  let progress : Progress := {}
  let progress ← progress.steps (Parameter.named command) arguments
  let progress ← progress.close
  let settings := progress.settings
  if settings.path?.isSome && settings.text?.isSome then .error .argumentConflict
  return ⟨settings.path?, settings.text?, settings.task command⟩

/-- Help on a command, or on help itself. -/
def parseHelp : List String → UsageError
  | [] => .displayHelp
  | [name] =>
    if name = "help" ∨ (Command.ofName? name).isSome then .displayHelp else .invalidCommand
  | _ => .invalidCommand

/-- Reads what follows a double dash in place of a command: nothing there can be a command. -/
def parseBehindDash : List String → UsageError
  | [] => .displayHelpOnMissing
  | name :: _ =>
    if name = "help" ∨ (Command.ofName? name).isSome then .unknownArgument else .invalidCommand

/-- Reads a command line, without the name of the program. -/
def parse : List String → Except UsageError Invocation
  | [] => .error .displayHelpOnMissing
  | "help" :: rest => .error (parseHelp rest)
  | "--" :: rest => .error (parseBehindDash rest)
  | first :: rest =>
    match Command.ofName? first with
    | some command => parseCommand command rest
    | none =>
      match first.toList with
      | '-' :: '-' :: _ =>
        let progress : Progress := {}
        match progress.step [.help] first with
        | .error error => .error error
        | .ok _ => .error .displayHelp
      | '-' :: name :: _ => .error (if name = 'h' then .displayHelp else .unknownArgument)
      | _ => .error .invalidCommand

end CommandLine
end WorkItemQuery
