import WorkItemQuery.Span

/-!
# Diagnostics

A diagnostic says what is wrong with a query and where.  Its problem comes from a fixed list in
order of importance: of several diagnostics that start at one place, the most important ones hide
the others.
-/

namespace WorkItemQuery

/-- How bad a problem is. -/
inductive Severity where
  | error
  | warning
deriving DecidableEq, Repr

/-- The word for a severity. -/
def Severity.render : Severity → String
  | .error => "error"
  | .warning => "warning"

/-- What can be wrong with a query, the most important first. -/
inductive Problem where
  /-- A string literal is not closed. -/
  | unterminatedString
  /-- The text holds characters of no token. -/
  | unrecognizedToken
  /-- A parenthesis is not closed at the end. -/
  | unclosedParen
  /-- The query ends too early. -/
  | unexpectedEof
  | expectedSelect
  | expectedField
  | expectedFrom
  | expectedSource
  | expectedCondition
  | expectedOperator
  | expectedValue
  | expectedDate
  | expectedMode
  | expectedToken
  /-- A link mode stands in a query that is not about links. -/
  | modeInFlatQuery
  /-- Something follows a complete query. -/
  | trailingInput
  | unexpectedToken
  /-- A field name is not in the catalog. -/
  | unknownField
  /-- A field is selected twice. -/
  | duplicateField
deriving DecidableEq, Repr

namespace Problem

/-- Every problem, the most important first. -/
def all : List Problem :=
  [.unterminatedString, .unrecognizedToken, .unclosedParen, .unexpectedEof, .expectedSelect,
   .expectedField, .expectedFrom, .expectedSource, .expectedCondition, .expectedOperator,
   .expectedValue, .expectedDate, .expectedMode, .expectedToken, .modeInFlatQuery, .trailingInput,
   .unexpectedToken, .unknownField, .duplicateField]

/-- The place of a problem in the list; a smaller rank is more important. -/
def rank (problem : Problem) : Nat := problem.ctorIdx

/-- The name of a problem. -/
def name : Problem → String
  | .unterminatedString => "UnterminatedString"
  | .unrecognizedToken => "UnrecognizedToken"
  | .unclosedParen => "UnclosedParen"
  | .unexpectedEof => "UnexpectedEof"
  | .expectedSelect => "ExpectedSelect"
  | .expectedField => "ExpectedField"
  | .expectedFrom => "ExpectedFrom"
  | .expectedSource => "ExpectedSource"
  | .expectedCondition => "ExpectedCondition"
  | .expectedOperator => "ExpectedOperator"
  | .expectedValue => "ExpectedValue"
  | .expectedDate => "ExpectedDate"
  | .expectedMode => "ExpectedMode"
  | .expectedToken => "ExpectedToken"
  | .modeInFlatQuery => "ModeInFlatQuery"
  | .trailingInput => "TrailingInput"
  | .unexpectedToken => "UnexpectedToken"
  | .unknownField => "UnknownField"
  | .duplicateField => "DuplicateField"

/-- The problem of a name. -/
def ofName? (name : String) : Option Problem := all.find? (·.name == name)

/-- A field that is selected twice is only worth a warning. -/
def severity : Problem → Severity
  | .duplicateField => .warning
  | _ => .error

/-- A problem hides the less important ones at its place. -/
def hides (problem other : Problem) : Bool := problem.rank < other.rank

/-- Something that the query needs is not there. -/
def isMissingPart : Problem → Bool
  | .unexpectedEof | .expectedSelect | .expectedField | .expectedFrom | .expectedSource
  | .expectedCondition | .expectedOperator | .expectedValue | .expectedDate | .expectedMode
  | .expectedToken => true
  | _ => false

/-- The advice that comes with a problem. -/
def hint? : Problem → Option String
  | .expectedField => some "e.g., `[System.Id]` or `System.State`"
  | .expectedSource => some "e.g., `FROM WorkItems`"
  | .expectedDate => some "e.g., `ASOF '2024-01-31'`"
  | .expectedMode => some "use `MustContain`, `MayContain`, `DoesNotContain` or `Recursive`"
  | .modeInFlatQuery => some "use `FROM WorkItemLinks` for link queries"
  | .unterminatedString => some "close the string with a matching quote"
  | _ => none

/-- The message of a problem when there is nothing more to tell. -/
def plainMessage : Problem → String
  | .unterminatedString => "unterminated string literal"
  | .unrecognizedToken => "unrecognized input"
  | .unclosedParen => "missing closing `)`"
  | .unexpectedEof => "unexpected end of query"
  | .expectedSelect => "expected `SELECT`"
  | .expectedField => "expected a field"
  | .expectedFrom => "expected `FROM`"
  | .expectedSource => "expected `WorkItems` or `WorkItemLinks`"
  | .expectedCondition => "expected a condition"
  | .expectedOperator => "expected a comparison operator"
  | .expectedValue => "expected a value"
  | .expectedDate => "expected a date string"
  | .expectedMode => "expected a link mode"
  | .expectedToken => "expected token"
  | .modeInFlatQuery => "`MODE` is only valid in `WorkItemLinks` queries"
  | .trailingInput => "unexpected input after end of query"
  | .unexpectedToken => "unexpected token"
  | .unknownField => "unknown field"
  | .duplicateField => "duplicate field"

/-- What a message says before and after its detail. -/
def frame (problem : Problem) : String × String :=
  match problem with
  | .unexpectedEof => (problem.plainMessage ++ "; ", "")
  | .expectedToken => ("expected ", "")
  | .unknownField => ("`", "` is not a known field")
  | .duplicateField => ("field `", "` is selected more than once")
  | _ => (problem.plainMessage ++ (if problem.isMissingPart then ", " else ": "), "")

/-- The message of a problem with a detail. -/
def detailedMessage (problem : Problem) (detail : String) : String :=
  problem.frame.1 ++ detail ++ problem.frame.2

/-- The message of a problem, with a detail if there is one. -/
def message (problem : Problem) : Option String → String
  | none => problem.plainMessage
  | some detail => problem.detailedMessage detail

/-- The form of a detailed message, with a pair of braces for the detail. -/
def template (problem : Problem) : String := problem.detailedMessage "\x7b\x7d"

end Problem

/-- A remark on another part of the text. -/
structure Note where
  /-- The part that it is about. -/
  span : Span
  /-- What it says. -/
  message : String
deriving DecidableEq, Repr

/-- What is wrong with a query, and where. -/
structure Diagnostic where
  /-- What is wrong. -/
  problem : Problem
  /-- Where it is. -/
  span : Span
  /-- The message in full. -/
  message : String
  /-- Remarks on other parts of the text. -/
  related : List Note
  /-- Advice. -/
  hints : List String
deriving DecidableEq, Repr

namespace Diagnostic

/-- The spans of the diagnostic and of its notes fit into 32 bits. -/
def fits (diagnostic : Diagnostic) : Bool :=
  diagnostic.span.fits && diagnostic.related.all (·.span.fits)

/-- A problem at a place, with the message and the hint that come with it. -/
def of (problem : Problem) (span : Span) : Diagnostic where
  problem := problem
  span := span
  message := problem.plainMessage
  related := []
  hints := problem.hint?.toList

/-- Says more about the problem. -/
def withDetail (diagnostic : Diagnostic) (detail : String) : Diagnostic :=
  { diagnostic with message := diagnostic.problem.detailedMessage detail }

/-- Adds a remark on another part of the text. -/
def withNote (diagnostic : Diagnostic) (message : String) (span : Span) : Diagnostic :=
  { diagnostic with related := diagnostic.related ++ [⟨span, message⟩] }

/-- Adds advice. -/
def withHint (diagnostic : Diagnostic) (hint : String) : Diagnostic :=
  { diagnostic with hints := diagnostic.hints ++ [hint] }

/-- How bad the problem is. -/
def severity (diagnostic : Diagnostic) : Severity := diagnostic.problem.severity

/-- The diagnostic is about an error. -/
def isError (diagnostic : Diagnostic) : Bool := diagnostic.severity == .error

/-- The diagnostic is only a warning. -/
def isWarning (diagnostic : Diagnostic) : Bool := diagnostic.severity == .warning

/-- A diagnostic hides a less important one that starts at the same place. -/
def hides (diagnostic other : Diagnostic) : Bool :=
  diagnostic.span.start == other.span.start && diagnostic.problem.hides other.problem

/-- The first of two diagnostics of a list hides the second, unless one of them is hidden already. -/
def hide (diagnostics : List Diagnostic) (first second : Fin diagnostics.length)
    (hidden : Vector Bool diagnostics.length) : Vector Bool diagnostics.length :=
  if first = second ∨ hidden.get first = true ∨ hidden.get second = true then hidden
  else if (diagnostics.get first).hides (diagnostics.get second) then
    hidden.set second true second.isLt
  else hidden

/-- A diagnostic of a list hides what it can of the others, one after another. -/
def hideOthers (diagnostics : List Diagnostic) (hidden : Vector Bool diagnostics.length)
    (first : Fin diagnostics.length) : Vector Bool diagnostics.length :=
  (List.finRange diagnostics.length).foldl
    (fun hidden second => hide diagnostics first second hidden) hidden

/-- Which diagnostics of a list are hidden, when each of them in turn hides what it can. -/
def hiddenAmong (diagnostics : List Diagnostic) : Vector Bool diagnostics.length :=
  (List.finRange diagnostics.length).foldl (hideOthers diagnostics)
    (Vector.replicate diagnostics.length false)

/-- The diagnostics of a list that stay when each of them hides what it can, in order. -/
def filtered (diagnostics : List Diagnostic) : List Diagnostic :=
  ((diagnostics.zip (hiddenAmong diagnostics).toList).filter fun entry => !entry.2).map (·.1)

/-- The diagnostic on one line. -/
def render (diagnostic : Diagnostic) : String :=
  diagnostic.severity.render ++ " at " ++ diagnostic.span.render ++ ": " ++ diagnostic.message ++
    String.join (diagnostic.related.map fun note =>
      " (related: " ++ note.message ++ " at " ++ note.span.render ++ ")") ++
    String.join (diagnostic.hints.map fun hint => " (hint: " ++ hint ++ ")")

/-- The diagnostics of a list, one line each. -/
def renderAll (diagnostics : List Diagnostic) : String :=
  "\n".intercalate (diagnostics.map render)

/-- The number of errors in a list. -/
def errorCount (diagnostics : List Diagnostic) : Nat := diagnostics.countP isError

/-- The number of warnings in a list. -/
def warningCount (diagnostics : List Diagnostic) : Nat := diagnostics.countP isWarning

/-- Some diagnostic of a list is an error. -/
def hasErrors (diagnostics : List Diagnostic) : Bool := diagnostics.any isError

/-- Some diagnostic of a list is a warning. -/
def hasWarnings (diagnostics : List Diagnostic) : Bool := diagnostics.any isWarning

end Diagnostic
end WorkItemQuery
