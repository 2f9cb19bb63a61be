import WorkItemQuery.Json
import WorkItemQuery.Tree

/-!
# Tokens and trees as JSON

A token is an object with its kind, place and text, and with the token that it remembers.  A node
is an object with its kind and its children.
-/

namespace WorkItemQuery

/-- The members that every token has. -/
def Lexeme.jsonMembers (lexeme : Lexeme) : List (String × Json) :=
  [("kind", .string lexeme.kind.name),
   ("line", .nat lexeme.line),
   ("start_column", .nat lexeme.column),
   ("end_column", .nat lexeme.endColumn),
   ("text", .string lexeme.text)]

/-- A lexeme with the lexemes that it remembers, the nearest first, as a value. -/
def Lexeme.toJson (lexeme : Lexeme) : List Lexeme → Json
  | [] => .object lexeme.jsonMembers
  | prev :: before => .object (lexeme.jsonMembers ++ [("prev", prev.toJson before)])

/-- A token as a value. -/
def Token.toJson (token : Token) : Json := token.toLexeme.toJson token.before

/-- A token list as a value. -/
def tokensToJson (tokens : List Token) : Json := .array (tokens.map Token.toJson)

namespace Tree

mutual

/-- A tree as a value. -/
def toJson : Tree → Json
  | .leaf token => token.toJson
  | .node kind children =>
    .object [("kind", .string kind.name), ("children", .array (toJsonAll children))]

/-- The trees of a list as values. -/
def toJsonAll : List Tree → List Json
  | [] => []
  | tree :: rest => tree.toJson :: toJsonAll rest

end

end Tree
end WorkItemQuery
