import WorkItemQuery.CommandLine.Arguments
import WorkItemQuery.CommandLine.Files
import WorkItemQuery.Diagnostic.Snippet
import WorkItemQuery.Field.Decoding
import WorkItemQuery.Query.Validation
import WorkItemQuery.Select.Printer
import WorkItemQuery.Tree.Dump
import WorkItemQuery.Tree.Encoding

/-!
# Commands

A command takes a query from its text, from a file or from the standard input.  It writes an answer
to the standard output, reports to the standard error, and ends with status one if something is
wrong with the query or if it cannot be had at all.
-/

namespace WorkItemQuery
namespace CommandLine

/-- What a command can read. -/
structure Environment where
  /-- The text of the file at a path. -/
  file : String → Except ReadError String
  /-- The text of the standard input. -/
  stdin : Except ReadError String
  /-- The standard error is a terminal. -/
  stderrIsTerminal : Bool := false

/-- What a command has written, and the status that it ends with. -/
structure Outcome where
  /-- The status. -/
  exit : Nat
  /-- The standard output. -/
  stdout : String
  /-- The standard error. -/
  stderr : String
deriving DecidableEq, Repr

/-- Why a query or a field list cannot be had. -/
inductive LoadError where
  | missingQuery
  | emptyQuery
  | stdin (error : ReadError)
  | file (path : String) (error : ReadError)
  /-- The file is no field list, with the reason in words. -/
  | fields (path : String) (reason : String)
deriving DecidableEq, Repr

/-- The reason in words. -/
def LoadError.message : LoadError → String
  | .missingQuery => "query is required: use positional argument or -q/--query"
  | .emptyQuery => "query cannot be empty"
  | .stdin error => "failed to read stdin: " ++ error.message
  | .file path error => "failed to read '" ++ path ++ "': " ++ error.message
  | .fields path reason => "invalid field list '" ++ path ++ "': " ++ reason

namespace Environment

/-- The text of the file at a path, which must be there. -/
def readFile (env : Environment) (path : String) : Except LoadError String :=
  match env.file path with
  | .ok text => .ok text
  | .error error => .error (.file path error)

/-- The text of the standard input. -/
def readStdin (env : Environment) : Except LoadError String :=
  match env.stdin with
  | .ok text => .ok text
  | .error error => .error (.stdin error)

/-- The query of a text, or else of a path.  It must not be blank. -/
def loadQuery (env : Environment) (path? text? : Option String) : Except LoadError String := do
  let text ← match text?, path? with
    | some text, _ => .ok text
    | none, some "-" => env.readStdin
    | none, some path => env.readFile path
    | none, none => .error .missingQuery
  if Text.allBlank text.toList then .error .emptyQuery else .ok text

/-- The field list of a path. -/
def loadFields (env : Environment) (path : String) : Except LoadError (List FieldRecord) := do
  let text ← env.readFile path
  match FieldRecord.parseList text with
  | .ok records => .ok records
  | .error error => .error (.fields path (error.message text))

end Environment

/-- The outcome of a command that has nothing to say but what went wrong. -/
def Outcome.failed (message : String) : Outcome := ⟨1, "", "error: " ++ message ++ "\n"⟩

/-- Whether reports are written in colour. -/
def Color.isOn (env : Environment) : Color → Bool
  | .always => true
  | .never => false
  | .auto => env.stderrIsTerminal

/-- The reports on a query as drawings.  Their places all lie in its text. -/
def drawReports (env : Environment) (color : Color) (query : Query) : String :=
  (Diagnostic.drawAll? query.source none (color.isOn env) query.diagnostics).getD ""

/-- The tokens of a query text. -/
def runTokens (json : Bool) (source : String) : Outcome :=
  let tokens := tokenize source
  ⟨0, if json then (tokensToJson tokens).pretty ++ "\n" else dumpTokens tokens, ""⟩

/-- The tree of a query, with its reports. -/
def runAst (env : Environment) (json : Bool) (color : Color) (query : Query) : Outcome :=
  let reports := drawReports env color query
  match query.root? with
  | none => ⟨1, "", reports⟩
  | some root => ⟨0, if json then root.toJson.pretty ++ "\n" else root.dump, reports⟩

/-- The canonical text of a valid query, and the reports on another. -/
def runFmt (env : Environment) (color : Color) (query : Query) : Outcome :=
  if query.isValid then
    match query.root?.bind Tree.format? with
    | some (.ok text) => ⟨0, text ++ "\n", ""⟩
    | some (.error broken) => .failed broken.message
    | none => ⟨0, "", ""⟩
  else ⟨1, "", drawReports env color query⟩

/-- The verdict on a query: nothing if it is fine, and its reports otherwise. -/
def runCheck (env : Environment) (strict : Bool) (color : Color) (query : Query) : Outcome :=
  if query.isValid && !(strict && Diagnostic.hasWarnings query.diagnostics) then ⟨0, "", ""⟩
  else ⟨1, "", drawReports env color query⟩

/-- The query of a text, with the nesting that the command allows. -/
def readQuery (fuel? : Option Nat) (source : String) : Except String Query :=
  match Query.parse (some (fuel?.getD Grammar.defaultLimit)) source with
  | .ok query => .ok query
  | .error fault => .error (fault.message?.getD "")

/-- The query with its fields looked up in the field list of a path, if there is one. -/
def checkFields (env : Environment) (fields? : Option String) (query : Query) :
    Except String Query :=
  match fields? with
  | none => .ok query
  | some path =>
    match env.loadFields path with
    | .error error => .error error.message
    | .ok records => .ok (query.validate (.ofList records))

/-- Runs the task of a command on a query text. -/
def Task.run (env : Environment) (source : String) : Task → Except String Outcome
  | .tokens json => .ok (runTokens json source)
  | .ast json fuel? color => runAst env json color <$> readQuery fuel? source
  | .fmt fuel? color => runFmt env color <$> readQuery fuel? source
  | .check fields? strict fuel? color => do
    let query ← readQuery fuel? source
    let query ← checkFields env fields? query
    return runCheck env strict color query

/-- Runs a command. -/
def run (env : Environment) (invocation : Invocation) : Outcome :=
  match env.loadQuery invocation.path? invocation.text? with
  | .error error => .failed error.message
  | .ok source =>
    match invocation.task.run env source with
    | .ok outcome => outcome
    | .error message => .failed message

end CommandLine
end WorkItemQuery
