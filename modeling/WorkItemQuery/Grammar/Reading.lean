import WorkItemQuery.Grammar.Productions
import WorkItemQuery.Tree.Walk

/-!
# Reading a token list as a query

Tokens that mark a mistake in the text are reported first.  Then the tokens are read as one query:
the answer has its tree, or one report of what does not fit, or both if something follows a
complete query.
-/

namespace WorkItemQuery
namespace Grammar

/-- A token list that has been read. -/
structure Reading where
  /-- The tokens, with an end mark. -/
  tokens : List Token
  /-- The tree of the query, unless a mistake stopped the reading. -/
  root? : Option Tree
  /-- What is wrong with the tokens. -/
  diagnostics : List Diagnostic
deriving Repr

/-- The spans of the end mark, of the tree and of the diagnostics fit into 32 bits. -/
def Reading.fits (reading : Reading) : Bool :=
  reading.tokens.getLast?.all Token.fits && reading.root?.all Tree.fits &&
    reading.diagnostics.all Diagnostic.fits

/-- The token list with an end mark: its own, or one behind its last token. -/
def withEndMark (tokens : List Token) : List Token :=
  match tokens.getLast? with
  | none => [.endMark 1 1 0 none]
  | some last =>
    if last.kind = .endMark then tokens
    else tokens ++ [.endMark last.line last.endColumn last.span.stop (some last)]

/-- The report on a token that marks a mistake in the text itself. -/
def lexicalReport? (token : Token) : Option Diagnostic :=
  let report problem :=
    (Diagnostic.of problem token.span).withDetail ("`" ++ token.text ++ "`")
  match token.kind with
  | .openString => some (report .unterminatedString)
  | .unrecognized => some (report .unrecognizedToken)
  | _ => none

/-- The report on the tokens that follow a complete query. -/
def trailingReport? (ctx : Context) (tokens : List Token) : Option Diagnostic :=
  let token := ctx.current tokens
  if token.kind = .endMark ∨ token.kind.isLexicalError then none
  else
    let last := match ctx.final.prev? with
      | none => token
      | some last => last
    some ((Diagnostic.of .trailingInput (token.span.cover last.span)).withDetail
      ("found " ++ token.shown))

/-- Reads a token list as a query.  Without a limit on the nesting of conditions the number of
tokens is one that no query reaches. -/
def parse (limit : Option Nat) (tokens : List Token) : Except Fault Reading :=
  let tokens := withEndMark tokens
  let ctx : Context := ⟨tokens.getLast?.getD (.endMark 1 1 0 none)⟩
  let lexical := tokens.filterMap lexicalReport?
  match query ctx (limit.getD tokens.length) tokens with
  | .ok (root, rest) => .ok ⟨tokens, some root, lexical ++ (trailingReport? ctx rest).toList⟩
  | .error (.report diagnostic) => .ok ⟨tokens, none, lexical ++ [diagnostic]⟩
  | .error .silent => .ok ⟨tokens, none, lexical⟩
  | .error (.fault fault) => .error fault

/-- How deep conditions may nest when nothing else is asked for. -/
def defaultLimit : Nat := 256

end Grammar
end WorkItemQuery
