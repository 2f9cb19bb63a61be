import WorkItemQuery.Grammar.Reading

/-!
# Reading with checks

The same reading as it is carried out on the token list: a position moves through the list, every
look at a token is counted, and the count starts again where a token is taken and where a nested
expression begins or ends.  Each step checks what it takes for granted, and a check that fails
raises an alarm.

Reports are collected on the way.  A reading that is given up keeps them, with the place of the last
one and with what has gone wrong, so that nothing is reported twice at one place.
-/

namespace WorkItemQuery
namespace Grammar
namespace Checked

/-- A check that has failed. -/
inductive Alarm where
  /-- Too many looks at tokens without taking one. -/
  | stuck
  /-- The next token is not of the kind that it has to be. -/
  | wrongToken (expected found : Kind)
  /-- The end mark would be taken. -/
  | takenAtEnd
  /-- There is no token at the position. -/
  | outOfBounds
  /-- Expressions are nested deeper than there are tokens. -/
  | endless
deriving DecidableEq, Repr

/-- Why a reading breaks off. -/
inductive Break where
  /-- It is given up; why has been reported or remembered. -/
  | givenUp
  /-- There is no answer. -/
  | fault (fault : Fault)
  /-- A check has failed. -/
  | alarm (alarm : Alarm)
deriving DecidableEq, Repr

/-- How many looks at tokens are allowed without taking one. -/
def fullLooks : Nat := 256

/-- Where a reading stands, and what it has found. -/
structure Cursor where
  /-- How many tokens have been taken. -/
  position : Nat := 0
  /-- How many looks at tokens are left. -/
  looks : Nat := fullLooks
  /-- How many nested expressions are being read. -/
  depth : Nat := 0
  /-- What has been reported. -/
  reports : List Diagnostic := []
  /-- Where the last report on what does not fit starts. -/
  reported? : Option Nat := none
  /-- What has gone wrong, so that there is no answer. -/
  fault? : Option Fault := none
deriving DecidableEq, Repr

/-- What is read. -/
structure Source where
  /-- The tokens, with an end mark. -/
  tokens : List Token
  /-- How deep conditions may nest. -/
  limit : Option Nat

/-- The end mark of the tokens. -/
def Source.context (source : Source) : Context :=
  ⟨source.tokens.getLast?.getD (.endMark 1 1 0 none)⟩

/-- Where a reading starts: tokens that mark a mistake in the text have their reports already. -/
def Source.start (source : Source) : Cursor :=
  { reports := source.tokens.filterMap lexicalReport? }

/-- A step of a reading, or several.  Where it breaks off is known as well. -/
abbrev Run (α : Type) := ExceptT Break (StateM Cursor) α

/-- Gives the reading up. -/
def giveUp {α : Type} : Run α := throw .givenUp

/-- Remembers what has gone wrong, unless something has before, and gives the reading up. -/
def fail {α : Type} (fault : Fault) : Run α := do
  modify fun cursor => { cursor with fault? := cursor.fault?.or (some fault) }
  giveUp

/-- The node of a kind over children. -/
def node (kind : Kind) (children : List Tree) : Run Tree :=
  match Tree.build kind children with
  | .ok tree => pure tree
  | .error error => fail (.malformed error)

/-- Links the elements of a list into nested nodes, the last one first. -/
def chain (kind : Kind) : List (List Tree) → Run Tree
  | [] => throw (.fault .stalled)
  | [children] => node kind children
  | children :: rest => do
    let tail ← chain kind rest
    node kind (children ++ [tail])

/-- Counts a look at a token. -/
def look : Run Unit := do
  let cursor ← get
  match cursor.looks with
  | 0 => throw (.alarm .stuck)
  | left + 1 => set { cursor with looks := left }

/-- Starts the count again. -/
def reset : Run Unit := modify fun cursor => { cursor with looks := fullLooks }

variable (source : Source)

/-- The token at an index. -/
def tokenAt (index : Nat) : Run Token :=
  match source.tokens[index]? with
  | some token => pure token
  | none => throw (.alarm .outOfBounds)

/-- The next token, which stays where it is. -/
def currentToken : Run Token := do
  look
  let cursor ← get
  tokenAt source (min cursor.position (source.tokens.length - 1))

/-- The kind of the next token. -/
def current : Run Kind := do
  let token ← currentToken source
  return token.kind

/-- The kind of the token after a number of others; behind the last token there are only end
marks. -/
def ahead (count : Nat) : Run Kind := do
  look
  let cursor ← get
  match source.tokens[cursor.position + count]? with
  | some token => return token.kind
  | none => return .endMark

/-- Checks the kind of the next token. -/
def check (expected : Kind) : Run Unit := do
  let found ← current source
  if found ≠ expected then throw (.alarm (.wrongToken expected found))

/-- Checks that the next token is no end mark. -/
def checkNotEnd : Run Unit := do
  let found ← current source
  if found = .endMark then throw (.alarm .takenAtEnd)

/-- Takes the next token, which is no end mark. -/
def take : Run Token := do
  checkNotEnd source
  reset
  let cursor ← get
  let token ← tokenAt source cursor.position
  set { cursor with position := cursor.position + 1 }
  return token

/-- Takes the next token if its kind lies in a set. -/
def eatOneOf (kinds : KindSet) : Run (Option Token) := do
  if (← current source) ∈ kinds then
    let token ← take source
    return some token
  else return none

/-- Takes the next token if it is of a kind. -/
def eat (kind : Kind) : Run (Option Token) := eatOneOf source (.single kind)

/-- The next token as a child if its kind lies in a set, and no child otherwise. -/
def optional (kinds : KindSet) : Run (List Tree) := do
  match ← eatOneOf source kinds with
  | some token => return [.leaf token]
  | none => return []

/-! ## Reports -/

/-- The next token as a report shows it. -/
def found : Run String := do
  let token ← currentToken source
  return token.shown

/-- A report that starts at an offset is news if nothing has gone wrong and the last report starts
elsewhere.  Then the offset is remembered. -/
def isNews (offset : Nat) : Run Bool := do
  let cursor ← get
  if cursor.fault?.isSome ∨ cursor.reported? = some offset then return false
  else do
    set { cursor with reported? := some offset }
    return true

/-- Adds a report that is news. -/
def report (diagnostic : Diagnostic) : Run Unit := do
  if ← isNews diagnostic.span.start then
    modify fun cursor => { cursor with reports := cursor.reports ++ [diagnostic] }

/-- Stops with a report. -/
def stopWith {α : Type} (diagnostic : Diagnostic) : Run α := do
  report diagnostic
  giveUp

/-- Stops at the next token.  At the end of the query the report says what was expected instead. -/
def haltAt {α : Type} (problem : Problem) (expected detail : String) : Run α := do
  let kind ← current source
  if kind.isLexicalError then giveUp
  else if kind = .endMark then
    stopWith ((Diagnostic.of .unexpectedEof (.empty source.context.endOffset)).withDetail expected)
  else do
    let token ← currentToken source
    stopWith ((Diagnostic.of problem token.span).withDetail detail)

/-- Stops at the next token with a problem, and shows the token. -/
def halt {α : Type} (problem : Problem) : Run α := do
  let shown ← found source
  haltAt source problem problem.plainMessage ("found " ++ shown)

/-- Takes the next token, which must be of a kind. -/
def expect (kind : Kind) (problem : Problem) : Run Token := do
  match ← eat source kind with
  | some token => return token
  | none => halt source problem

/-- Takes the next token, which must be of a kind; a report names the kind. -/
def expectToken (kind : Kind) : Run Token := do
  match ← eat source kind with
  | some token => return token
  | none => do
    let shown ← found source
    haltAt source .expectedToken ("expected " ++ kind.describe)
      (kind.describe ++ ", found " ++ shown)

/-- Stops at the next token, which does not close the parenthesis at a span. -/
def haltUnclosed {α : Type} (opened : Span) : Run α := do
  let kind ← current source
  if kind.isLexicalError then giveUp
  else if kind = .endMark then
    match Span.between? opened.start source.context.endOffset with
    | none => throw (.fault .invertedSpan)
    | some span => stopWith ((Diagnostic.of .unclosedParen span).withNote openedHere opened)
  else do
    let token ← currentToken source
    let shown ← found source
    stopWith (((Diagnostic.of .expectedToken token.span).withDetail
      ("`)`, found " ++ shown)).withNote openedHere opened)

/-- Takes the parenthesis that closes the one at a span. -/
def closeParen (opened : Span) : Run Token := do
  match ← eat source .rightParen with
  | some token => return token
  | none => haltUnclosed source opened

/-- Reports the tokens that follow a complete query. -/
def trailing : Run Unit := do
  let token ← currentToken source
  if token.kind.isLexicalError then return ()
  let last := match source.context.final.prev? with
    | none => token
    | some last => last
  let shown ← found source
  report ((Diagnostic.of .trailingInput (token.span.cover last.span)).withDetail
    ("found " ++ shown))

/-! ## Lists and nested expressions -/

/-- The elements of a list, each but the last with its separator, in a number of steps. -/
def elements (item : Run (List Tree)) (separators : KindSet) : Nat → Run (List (List Tree))
  | 0 => throw (.fault .stalled)
  | steps + 1 => do
    let children ← item
    match ← eatOneOf source separators with
    | none => return [children]
    | some separator => do
      let rest ← elements item separators steps
      return (children ++ [.leaf separator]) :: rest

/-- A list of elements as linked nodes.  Every separator is a token, so there are at most as many
steps as tokens are left, and one more. -/
def linked (kind : Kind) (separators : KindSet) (item : Run (List Tree)) : Run Tree := do
  let cursor ← get
  let parts ← elements source item separators (source.tokens.length - cursor.position + 1)
  chain kind parts

/-- Reads something one level deeper, and comes back to the level even if it is given up. -/
def deeper {α : Type} (inner : Run α) : Run α := fun cursor =>
  let (answer, cursor) := inner { cursor with depth := cursor.depth + 1, looks := fullLooks }
  (answer, { cursor with depth := cursor.depth - 1, looks := fullLooks })

/-- Reads an expression one level deeper, unless that is deeper than allowed. -/
def nested {α : Type} (inner : Run α) : Run α := do
  let cursor ← get
  if source.limit.any (· ≤ cursor.depth) then fail .recursionLimit
  else deeper inner

/-! ## Productions -/

/-- A field name. -/
def field : Run Tree := do
  let name ← expect source .identifier .expectedField
  node .field [.leaf name]

/-- Digits, with a minus before them or not. -/
def number : Run Tree := do
  let minus ← optional source (.single .minus)
  let digits ← expectToken source .digits
  node .number (minus ++ [.leaf digits])

/-- A string literal that is read as a date. -/
def date : Run Tree := do
  let text ← expect source .string .expectedDate
  node .dateTime [.leaf text]

/-- What a value is built on, where the next token begins a value. -/
def term : Run Tree := do
  match ← current source with
  | .digits | .minus => number source
  | .identifier => field source
  | _ => do
    let token ← take source
    return .leaf token

/-- A term, with an offset behind it or not. -/
def value : Run Tree := do
  if (← current source) ∈ KindSet.valueFirst then
    let first ← term source
    match ← eatOneOf source .plusMinus with
    | none => node .value [first]
    | some sign => do
      let offset ← number source
      node .value [first, .leaf sign, offset]
  else halt source .expectedValue

/-- Values with commas between them. -/
def valueList : Run Tree :=
  linked source .valueList (.single .comma) do
    let item ← value source
    return [item]

/-- The operator proper: one token, `CONTAINS WORDS` or `IN GROUP`. -/
def operatorProper : Run Tree := do
  match ← current source with
  | .containsKw => do
    let contains ← take source
    match ← eat source .wordsKw with
    | some words => node .containsWords [.leaf contains, .leaf words]
    | none => return .leaf contains
  | .inKw => do
    let word ← take source
    let group ← expectToken source .groupKw
    node .inGroup [.leaf word, .leaf group]
  | .everKw => do
    let token ← take source
    return .leaf token
  | kind =>
    if kind ∈ KindSet.comparisonOperators then do
      let token ← take source
      return .leaf token
    else halt source .expectedOperator

/-- An operator, with a `NOT` before it or not. -/
def operator : Run Tree := do
  let negation ← optional source (.single .notKw)
  let proper ← operatorProper source
  node .operator (negation ++ [proper])

/-- The next tokens are `NOT IN`, but not `NOT IN GROUP`. -/
def startsNotIn : Run Bool := do
  if (← current source) = .notKw then
    if (← ahead source 1) = .inKw then return (← ahead source 2) != .groupKw
    else return false
  else return false

/-- The next token is `IN`, but not that of `IN GROUP`. -/
def startsIn : Run Bool := do
  if (← current source) = .inKw then return (← ahead source 1) != .groupKw
  else return false

/-- A list of values between parentheses, behind the words before it. -/
def membership (words : List Tree) : Run (List Tree) := do
  let opened ← expectToken source .leftParen
  let values ← valueList source
  let closed ← closeParen source opened.span
  return words ++ [.leaf opened, values, .leaf closed]

/-- What a condition says of its field. -/
def comparison : Run (List Tree) := do
  let not_in ← startsNotIn source
  let plain_in ← startsIn source
  if not_in then do
    let negation ← take source
    let word ← take source
    membership source [.leaf negation, .leaf word]
  else if plain_in then do
    let word ← take source
    membership source [.leaf word]
  else do
    let relation ← operator source
    let right ← value source
    return [relation, right]

/-- A side of a link with its dot. -/
def side : Run Tree := do
  let word ← take source
  let dot ← expectToken source .dot
  let kind := if word.kind = .sourceKw then Kind.sourceSide else .targetSide
  node kind [.leaf word, .leaf dot]

/-- The side before a field, where the form has sides. -/
def sideOf (form : Dialect) : Run (List Tree) := do
  if form.hasSides then
    if (← current source) ∈ KindSet.linkSide then
      let tree ← side source
      return [tree]
    else return []
  else return []

/-- The side before the field of a condition, where the form has sides.  Without a side the field
must be next. -/
def conditionSide (form : Dialect) : Run (List Tree) := do
  match ← sideOf source form with
  | [] => do
    if (← current source) = .identifier then return []
    else halt source .expectedCondition
  | side => return side

/-- A field and what is said of it. -/
def leafCondition (form : Dialect) : Run Tree := do
  let side ← conditionSide source form
  let name ← field source
  let rest ← comparison source
  node form.condition (side ++ name :: rest)

/-- A condition.  The nested expression between parentheses is read by the given run. -/
def condition (form : Dialect) (inner : Run Tree) : Run Tree := do
  match ← eat source .leftParen with
  | none => leafCondition source form
  | some opened => do
    let tree ← nested source inner
    let closed ← closeParen source opened.span
    node form.condition [.leaf opened, tree, .leaf closed]

/-- Conditions with `AND` and `OR` between them, each with `EVER` or `NOT` before it or not. -/
def conditions (form : Dialect) (inner : Run Tree) : Run Tree :=
  linked source form.expression .andOr do
    let modifier ← optional source .everNot
    let tree ← condition source form inner
    return modifier ++ [tree]

/-- A chain of conditions, on a number of levels. -/
def expression (form : Dialect) : Nat → Run Tree
  | 0 => conditions source form (throw (.alarm .endless))
  | levels + 1 => conditions source form (expression form levels)

/-- Fields with commas between them. -/
def fieldList : Run Tree :=
  linked source .fieldList (.single .comma) do
    let name ← field source
    return [name]

/-- Sort keys with commas between them. -/
def orderList (form : Dialect) : Run Tree :=
  linked source form.order (.single .comma) do
    let side ← sideOf source form
    let name ← field source
    let direction ← optional source .ascDesc
    return side ++ name :: direction

/-- A clause that begins with a word, or nothing. -/
def clause (word : Kind) (body : Run Tree) : Run (List Tree) := do
  match ← eat source word with
  | none => return []
  | some found => do
    let tree ← body
    return [.leaf found, tree]

/-- The clauses that both forms share: the conditions and the sort keys. -/
def filterClauses (form : Dialect) : Run (List Tree) := do
  let filter ← clause source .whereKw (expression source form source.tokens.length)
  let order ← clause source .orderByKw (orderList source form)
  return filter ++ order

/-- The inside of a mode clause, with the kind of query that it makes. -/
def mode : Run (Kind × List Tree) := do
  match ← current source with
  | .mustContainKw | .mayContainKw | .doesNotContainKw => do
    let word ← take source
    return (.oneHopSelect, [.leaf word])
  | .recursiveKw => do
    let word ← take source
    match ← eat source .comma with
    | none => return (.recursiveSelect, [.leaf word])
    | some comma => do
      let matching ← expectToken source .matchingChildrenKw
      return (.recursiveSelect, [.leaf word, .leaf comma, .leaf matching])
  | _ => halt source .expectedMode

/-- A mode clause with the kind of query that it makes. -/
def modeClause : Run (Kind × List Tree) := do
  check source .modeKw
  let word ← take source
  let opened ← expectToken source .leftParen
  let (kind, inside) ← mode source
  let closed ← closeParen source opened.span
  return (kind, .leaf word :: .leaf opened :: inside ++ [.leaf closed])

/-- The date and the mode in the order in which they come, each at most once: those that are still
missing are read.  The kind is the one that a mode has made so far. -/
def linkClauses (kind : Kind) (missing_date missing_mode : Bool) : Run (Kind × List Tree) := do
  let next ← current source
  if _date : next = .asofKw ∧ missing_date = true then do
    let word ← take source
    let tree ← date source
    let (kind, rest) ← linkClauses kind false missing_mode
    return (kind, .leaf word :: tree :: rest)
  else if _mode : next = .modeKw ∧ missing_mode = true then do
    let (kind, clause) ← modeClause source
    let (kind, rest) ← linkClauses kind missing_date false
    return (kind, clause ++ rest)
  else return (kind, [])
termination_by missing_date.toNat + missing_mode.toNat
decreasing_by
  · simp [_date.2]
  · simp [_mode.2]

/-- The rest of a flat query behind its head. -/
def flatTail (head : List Tree) : Run Tree := do
  check source .workItemsKw
  let place ← take source
  let filter ← filterClauses source .flat
  let asof ← clause source .asofKw (date source)
  if (← current source) = .modeKw then halt source .modeInFlatQuery
  else node .flatSelect (head ++ .leaf place :: filter ++ asof)

/-- The rest of a query about links behind its head. -/
def linkTail (head : List Tree) : Run Tree := do
  check source .workItemLinksKw
  let place ← take source
  let filter ← filterClauses source .link
  let (kind, clauses) ← linkClauses source .oneHopSelect true true
  node kind (head ++ .leaf place :: filter ++ clauses)

/-- A query. -/
def query : Run Tree := do
  let select ← expect source .selectKw .expectedSelect
  let fields ← fieldList source
  let origin ← expect source .fromKw .expectedFrom
  let head := [.leaf select, fields, .leaf origin]
  match ← current source with
  | .workItemsKw => flatTail source head
  | .workItemLinksKw => linkTail source head
  | _ => halt source .expectedSource

/-- A query, with a report on what follows it. -/
def root : Run Tree := do
  let tree ← query source
  if (← current source) = .endMark then return tree
  else do
    trailing source
    return tree

/-- Why a token list has no answer. -/
inductive Failure where
  /-- The reading has none. -/
  | fault (fault : Fault)
  /-- A check has failed. -/
  | alarm (alarm : Alarm)
deriving DecidableEq, Repr

/-- The tree and the reports, unless something has gone wrong. -/
def answer (root? : Option Tree) (cursor : Cursor) : Except Failure Reading :=
  match cursor.fault? with
  | some fault => .error (.fault fault)
  | none => .ok ⟨source.tokens, root?, cursor.reports⟩

/-- What a reading answers when it is over. -/
def conclude : Except Break Tree × Cursor → Except Failure Reading
  | (.ok tree, cursor) => answer source (some tree) cursor
  | (.error .givenUp, cursor) => answer source none cursor
  | (.error (.fault fault), _) => .error (.fault fault)
  | (.error (.alarm alarm), _) => .error (.alarm alarm)

/-- Reads a token list as a query, with all checks. -/
def parse (limit : Option Nat) (tokens : List Token) : Except Failure Reading :=
  let source : Source := ⟨withEndMark tokens, limit⟩
  conclude source (root source source.start)

end Checked
end Grammar
end WorkItemQuery
