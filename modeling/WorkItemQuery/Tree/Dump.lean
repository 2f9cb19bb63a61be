import WorkItemQuery.Text.Quoted
import WorkItemQuery.Tree

/-!
# Listings of tokens and trees

A token list is shown with one token on a line.  A tree is shown with one token or node on a line,
two blanks further in than its parent.
-/

namespace WorkItemQuery

/-- A token on one line: its kind, its line, its columns and its text. -/
def Token.dumpLine (token : Token) : String :=
  token.kind.name ++ " " ++ toString token.line ++ ":" ++ toString token.column ++ "-" ++
    toString token.endColumn ++ " " ++ Text.quoted token.text

/-- A token list, one line each. -/
def dumpTokens (tokens : List Token) : String :=
  String.join (tokens.map fun token => token.dumpLine ++ "\n")

namespace Tree

/-- The blanks before a line at a depth. -/
def indentation (depth : Nat) : String := .ofList (List.replicate (2 * depth) ' ')

mutual

/-- The lines of a tree whose root stands at a depth. -/
def dumpLines (depth : Nat) : Tree → List String
  | .leaf token => [indentation depth ++ token.kind.name ++ " " ++ Text.quoted token.text]
  | .node kind children => (indentation depth ++ kind.name) :: dumpLinesAll (depth + 1) children

/-- The lines of a list of trees whose roots stand at a depth. -/
def dumpLinesAll (depth : Nat) : List Tree → List String
  | [] => []
  | tree :: rest => tree.dumpLines depth ++ dumpLinesAll depth rest

end

/-- A tree as text. -/
def dump (tree : Tree) : String := String.join ((tree.dumpLines 0).map (· ++ "\n"))

end Tree
end WorkItemQuery
