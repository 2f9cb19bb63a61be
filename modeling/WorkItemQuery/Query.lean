import WorkItemQuery.Grammar.Reading
import WorkItemQuery.Select.Reading
import WorkItemQuery.Token.Lexer

/-!
# Parsed queries

A query text with its tokens, its tree and what is wrong with it.  What reading the text has found
and what looking up its fields has found are kept apart, so that the fields can be looked up again.
-/

namespace WorkItemQuery

/-- A query text that has been read. -/
structure Query where
  /-- The text. -/
  source : String
  /-- The tokens of the text, with the end mark. -/
  tokens : List Token
  /-- The tree, unless a mistake stopped the reading. -/
  root? : Option Tree
  /-- What reading the text has found. -/
  parseDiagnostics : List Diagnostic
  /-- What looking up the fields has found. -/
  fieldDiagnostics : List Diagnostic := []

/-- A fault in words, if it has any. -/
def Grammar.Fault.message? : Grammar.Fault → Option String
  | .recursionLimit => some "recursion limit exceeded"
  | .malformed error => some ("malformed production: " ++ error.message)
  | .invertedSpan => none
  | .stalled => none

namespace Query

/-- Reads a query text in which conditions nest up to a limit, if there is one. -/
def parse (limit : Option Nat) (source : String) : Except Grammar.Fault Query := do
  let reading ← Grammar.parse limit (tokenize source)
  return { source, tokens := reading.tokens, root? := reading.root?,
           parseDiagnostics := reading.diagnostics }

/-- Everything that has been found, in order, as far as one thing does not hide another. -/
def diagnostics (query : Query) : List Diagnostic :=
  Diagnostic.filtered (query.parseDiagnostics ++ query.fieldDiagnostics)

/-- The query has a tree, and no error has been found. -/
def isValid (query : Query) : Bool :=
  query.root?.isSome && !Diagnostic.hasErrors query.parseDiagnostics &&
    !Diagnostic.hasErrors query.fieldDiagnostics

/-- The message for a query that is not valid. -/
def invalidMessage (query : Query) : String :=
  "query parsing failed with " ++ toString (Diagnostic.errorCount query.diagnostics) ++ " errors"

/-- The query, if it is valid, and the message otherwise. -/
def valid (query : Query) : Except String Query :=
  if query.isValid then .ok query else .error query.invalidMessage

/-- What the query says, if it has a tree. -/
def select? (query : Query) : Option (Except BrokenRole Select) :=
  query.root?.bind Tree.readSelect?

end Query
end WorkItemQuery
