import WorkItemQuery.Diagnostic
import WorkItemQuery.Tree.Shape

/-!
# Reading tokens

A production takes tokens from the front of those that are left and answers a value, or says why it
stops.  Reading stops at the first mistake.  A token that marks a mistake in the text itself has its
own report already, so that stopping there is silent.
-/

namespace WorkItemQuery
namespace Grammar

/-- Why a token list has no answer at all. -/
inductive Fault where
  /-- Conditions are nested deeper than allowed. -/
  | recursionLimit
  /-- The children of a production cannot play the roles of its node. -/
  | malformed (error : ShapeError)
  /-- The end of the tokens lies before an open parenthesis. -/
  | invertedSpan
  /-- A list made no progress. -/
  | stalled
deriving DecidableEq, Repr

/-- Why a production stops. -/
inductive Stop where
  /-- The tokens do not fit, for this reason. -/
  | report (diagnostic : Diagnostic)
  /-- The tokens do not fit, and the reason has its report already. -/
  | silent
  /-- There is no answer at all. -/
  | fault (fault : Fault)
deriving DecidableEq, Repr

/-- What takes tokens from the front of a list and answers a value, or stops. -/
abbrev Production (α : Type) := StateT (List Token) (Except Stop) α

/-- The last token of the list, which stands for the end wherever the tokens run out. -/
structure Context where
  /-- The end mark of the token list. -/
  final : Token

namespace Context

/-- The token that is read next. -/
def current (ctx : Context) (tokens : List Token) : Token := tokens.headD ctx.final

/-- The offset behind the last token before the end mark. -/
def endOffset (ctx : Context) : Nat :=
  match ctx.final.prev? with
  | none => 0
  | some token => token.span.stop

/-- Stops at the next token.  At the end of the query the report says what was expected instead. -/
def stopAt (ctx : Context) (tokens : List Token) (problem : Problem) (expected detail : String) :
    Stop :=
  let token := ctx.current tokens
  if token.kind.isLexicalError then .silent
  else if token.kind = .endMark then
    .report ((Diagnostic.of .unexpectedEof (.empty ctx.endOffset)).withDetail expected)
  else .report ((Diagnostic.of problem token.span).withDetail detail)

/-- Stops at the next token with a problem, and shows the token. -/
def stop (ctx : Context) (tokens : List Token) (problem : Problem) : Stop :=
  ctx.stopAt tokens problem problem.plainMessage ("found " ++ (ctx.current tokens).shown)

/-- Stops at the next token, where one of a kind must stand. -/
def stopFor (ctx : Context) (kind : Kind) (tokens : List Token) : Stop :=
  ctx.stopAt tokens .expectedToken ("expected " ++ kind.describe)
    (kind.describe ++ ", found " ++ (ctx.current tokens).shown)

end Context

/-- Stops at the next token, as the tokens that are left demand. -/
def haltWith {α : Type} (stop : List Token → Stop) : Production α := fun tokens =>
  .error (stop tokens)

/-- Stops at the next token with a problem. -/
def halt {α : Type} (ctx : Context) (problem : Problem) : Production α :=
  haltWith fun tokens => ctx.stop tokens problem

/-- The kind of the next token; behind the last token there are only end marks. -/
def nextKind : List Token → Kind
  | [] => .endMark
  | token :: _ => token.kind

/-- The kind of the next token, which stays where it is. -/
def peek : Production Kind := fun tokens => .ok (nextKind tokens, tokens)

/-- The next token, if its kind lies in a set. -/
def eatOneOf (kinds : KindSet) : Production (Option Token) := fun tokens =>
  match tokens with
  | [] => .ok (none, [])
  | token :: rest =>
    if kinds.contains token.kind then .ok (some token, rest) else .ok (none, token :: rest)

/-- The next token, if it is of a kind. -/
def eat (kind : Kind) : Production (Option Token) := eatOneOf (.single kind)

/-- The next token as a child if its kind lies in a set, and no child otherwise. -/
def optional (kinds : KindSet) : Production (List Tree) := do
  match ← eatOneOf kinds with
  | some token => return [.leaf token]
  | none => return []

/-- The next token, which must be of a kind. -/
def expect (ctx : Context) (kind : Kind) (problem : Problem) : Production Token := do
  match ← eat kind with
  | some token => return token
  | none => halt ctx problem

/-- The next token, which must be of a kind; a report names the kind. -/
def expectToken (ctx : Context) (kind : Kind) : Production Token := do
  match ← eat kind with
  | some token => return token
  | none => haltWith (ctx.stopFor kind)

/-- The remark on the parenthesis that a report is about. -/
def openedHere : String := "`(` opened here"

/-- Stops at the next token, which does not close the parenthesis at a span. -/
def Context.stopUnclosed (ctx : Context) (opened : Span) (tokens : List Token) : Stop :=
  let token := ctx.current tokens
  if token.kind.isLexicalError then .silent
  else if token.kind = .endMark then
    match Span.between? opened.start ctx.endOffset with
    | none => .fault .invertedSpan
    | some span => .report ((Diagnostic.of .unclosedParen span).withNote openedHere opened)
  else
    .report (((Diagnostic.of .expectedToken token.span).withDetail
      ("`)`, found " ++ token.shown)).withNote openedHere opened)

/-- The parenthesis that closes the one at a span. -/
def closeParen (ctx : Context) (opened : Span) : Production Token := do
  match ← eat .rightParen with
  | some token => return token
  | none => haltWith (ctx.stopUnclosed opened)

/-- The node of a kind over the children of a production. -/
def node (kind : Kind) (children : List Tree) : Except Stop Tree :=
  match Tree.build kind children with
  | .ok tree => .ok tree
  | .error error => .error (.fault (.malformed error))

/-- Links the elements of a list into nested nodes: each node holds one element and, behind it,
the node of the elements that follow. -/
def chain (kind : Kind) : List (List Tree) → Except Stop Tree
  | [] => .error (.fault .stalled)
  | [children] => node kind children
  | children :: rest => do
    let tail ← chain kind rest
    node kind (children ++ [tail])

/-- The elements of a list, each but the last with its separator, in a number of steps. -/
def elementsWithin (item : Production (List Tree)) (separators : KindSet) :
    Nat → Production (List (List Tree))
  | 0 => throw (.fault .stalled)
  | steps + 1 => do
    let children ← item
    match ← eatOneOf separators with
    | none => return [children]
    | some separator => do
      let rest ← elementsWithin item separators steps
      return (children ++ [.leaf separator]) :: rest

/-- The elements of a list, each but the last with its separator.  Every separator is a token, so
there are at most as many steps as tokens, and one more. -/
def elements (item : Production (List Tree)) (separators : KindSet) :
    Production (List (List Tree)) := fun tokens =>
  elementsWithin item separators (tokens.length + 1) tokens

/-- A list of elements as linked nodes. -/
def linked (kind : Kind) (separators : KindSet) (item : Production (List Tree)) :
    Production Tree := do
  let parts ← elements item separators
  chain kind parts

end Grammar
end WorkItemQuery
