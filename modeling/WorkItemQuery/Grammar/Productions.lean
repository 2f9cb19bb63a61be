import WorkItemQuery.Grammar

/-!
# Productions

The productions of the query language.  Every token that a production takes stays in its node,
words and marks included, so that a node covers its whole stretch of the text.
-/

namespace WorkItemQuery
namespace Grammar

/-- A field name. -/
def field (ctx : Context) : Production Tree := do
  let name ← expect ctx .identifier .expectedField
  node .field [.leaf name]

/-- Digits, with a minus before them or not. -/
def number (ctx : Context) : Production Tree := do
  let minus ← optional (.single .minus)
  let digits ← expectToken ctx .digits
  node .number (minus ++ [.leaf digits])

/-- A string literal that is read as a date. -/
def date (ctx : Context) : Production Tree := do
  let text ← expect ctx .string .expectedDate
  node .dateTime [.leaf text]

/-- What a value is built on: a number, a field, or one token. -/
def term (ctx : Context) : Production Tree := do
  match ← peek with
  | .digits | .minus => number ctx
  | .identifier => field ctx
  | _ =>
    match ← eatOneOf .valueFirst with
    | some token => return .leaf token
    | none => halt ctx .expectedValue

/-- A term, with an offset behind it or not. -/
def value (ctx : Context) : Production Tree := do
  let first ← term ctx
  match ← eatOneOf .plusMinus with
  | none => node .value [first]
  | some sign => do
    let offset ← number ctx
    node .value [first, .leaf sign, offset]

/-- Values with commas between them. -/
def valueList (ctx : Context) : Production Tree :=
  linked .valueList (.single .comma) do
    let item ← value ctx
    return [item]

/-- The operator proper: one token, `CONTAINS WORDS` or `IN GROUP`. -/
def operatorProper (ctx : Context) : Production Tree := do
  match ← eat .containsKw with
  | some contains =>
    match ← eat .wordsKw with
    | some words => node .containsWords [.leaf contains, .leaf words]
    | none => return .leaf contains
  | none =>
    match ← eat .inKw with
    | some word => do
      let group ← expectToken ctx .groupKw
      node .inGroup [.leaf word, .leaf group]
    | none =>
      match ← eatOneOf (KindSet.comparisonOperators.union (.single .everKw)) with
      | some token => return .leaf token
      | none => halt ctx .expectedOperator

/-- An operator, with a `NOT` before it or not. -/
def operator (ctx : Context) : Production Tree := do
  let negation ← optional (.single .notKw)
  let proper ← operatorProper ctx
  node .operator (negation ++ [proper])

/-- The kind of the token after a number of others. -/
def kindAt (tokens : List Token) (ahead : Nat) : Kind := nextKind (tokens.drop ahead)

/-- The next tokens ask whether a value is in a list: `IN` or `NOT IN`, but not `IN GROUP`. -/
def startsMembership (tokens : List Token) : Bool :=
  (kindAt tokens 0 == .inKw && kindAt tokens 1 != .groupKw) ||
    (kindAt tokens 0 == .notKw && kindAt tokens 1 == .inKw && kindAt tokens 2 != .groupKw)

/-- A list of values between parentheses, after `IN` or `NOT IN`. -/
def membership (ctx : Context) : Production (List Tree) := do
  let negation ← optional (.single .notKw)
  let word ← expectToken ctx .inKw
  let opened ← expectToken ctx .leftParen
  let values ← valueList ctx
  let closed ← closeParen ctx opened.span
  return negation ++ [.leaf word, .leaf opened, values, .leaf closed]

/-- What a condition says of its field. -/
def comparison (ctx : Context) : Production (List Tree) := do
  if startsMembership (← get) then membership ctx
  else do
    let relation ← operator ctx
    let right ← value ctx
    return [relation, right]

/-- A side of a link with its dot, behind its word. -/
def side (ctx : Context) (word : Token) : Production Tree := do
  let dot ← expectToken ctx .dot
  let kind := if word.kind = .sourceKw then Kind.sourceSide else .targetSide
  node kind [.leaf word, .leaf dot]

/-- A side of a link with its dot, or nothing. -/
def optionalSide (ctx : Context) : Production (List Tree) := do
  match ← eatOneOf .linkSide with
  | none => return []
  | some word => do
    let tree ← side ctx word
    return [tree]

/-- The side before a field, where the form has sides. -/
def sideOf (form : Dialect) (ctx : Context) : Production (List Tree) :=
  if form.hasSides then optionalSide ctx else return []

/-- A field and what is said of it. -/
def leafCondition (ctx : Context) (form : Dialect) : Production Tree := do
  let start ← peek
  if start = .identifier ∨ form.hasSides = true ∧ start ∈ KindSet.linkSide then do
    let side ← sideOf form ctx
    let name ← field ctx
    let rest ← comparison ctx
    node form.condition (side ++ name :: rest)
  else halt ctx .expectedCondition

/-- A condition.  The nested expression between parentheses is read by the given production. -/
def condition (ctx : Context) (form : Dialect) (nested : Production Tree) : Production Tree := do
  match ← eat .leftParen with
  | none => leafCondition ctx form
  | some opened => do
    let inner ← nested
    let closed ← closeParen ctx opened.span
    node form.condition [.leaf opened, inner, .leaf closed]

/-- Conditions with `AND` and `OR` between them, each with `EVER` or `NOT` before it or not. -/
def conditions (ctx : Context) (form : Dialect) (nested : Production Tree) : Production Tree :=
  linked form.expression .andOr do
    let modifier ← optional .everNot
    let tree ← condition ctx form nested
    return modifier ++ [tree]

/-- A chain of conditions in which parentheses nest up to a depth. -/
def expression (ctx : Context) (form : Dialect) : Nat → Production Tree
  | 0 => conditions ctx form (throw (.fault .recursionLimit))
  | depth + 1 => conditions ctx form (expression ctx form depth)

/-- Fields with commas between them. -/
def fieldList (ctx : Context) : Production Tree :=
  linked .fieldList (.single .comma) do
    let name ← field ctx
    return [name]

/-- Sort keys with commas between them. -/
def orderList (ctx : Context) (form : Dialect) : Production Tree :=
  linked form.order (.single .comma) do
    let side ← sideOf form ctx
    let name ← field ctx
    let direction ← optional .ascDesc
    return side ++ name :: direction

/-- A clause that begins with a word, or nothing. -/
def clause (word : Kind) (body : Production Tree) : Production (List Tree) := do
  match ← eat word with
  | none => return []
  | some found => do
    let tree ← body
    return [.leaf found, tree]

/-- The inside of a mode clause, with the kind of query that it makes. -/
def mode (ctx : Context) : Production (Kind × List Tree) := do
  match ← eatOneOf .linkMode with
  | some word => return (.oneHopSelect, [.leaf word])
  | none =>
    match ← eat .recursiveKw with
    | none => halt ctx .expectedMode
    | some word =>
      match ← eat .comma with
      | none => return (.recursiveSelect, [.leaf word])
      | some comma => do
        let matching ← expectToken ctx .matchingChildrenKw
        return (.recursiveSelect, [.leaf word, .leaf comma, .leaf matching])

/-- A mode clause with the kind of query that it makes.  Without the clause a query about links
goes one step. -/
def modeClause (ctx : Context) : Production (Kind × List Tree) := do
  match ← eat .modeKw with
  | none => return (.oneHopSelect, [])
  | some word => do
    let opened ← expectToken ctx .leftParen
    let (kind, inside) ← mode ctx
    let closed ← closeParen ctx opened.span
    return (kind, .leaf word :: .leaf opened :: inside ++ [.leaf closed])

/-- The date and the mode: each at most once, in either order. -/
def linkClauses (ctx : Context) : Production (Kind × List Tree) := do
  if (← peek) = .modeKw then do
    let (kind, mode) ← modeClause ctx
    let asof ← clause .asofKw (date ctx)
    return (kind, mode ++ asof)
  else do
    let asof ← clause .asofKw (date ctx)
    let (kind, mode) ← modeClause ctx
    return (kind, asof ++ mode)

/-- The clauses that both forms share: the conditions and the sort keys. -/
def filterClauses (ctx : Context) (form : Dialect) (depth : Nat) : Production (List Tree) := do
  let filter ← clause .whereKw (expression ctx form depth)
  let order ← clause .orderByKw (orderList ctx form)
  return filter ++ order

/-- The rest of a flat query after its head. -/
def flatTail (ctx : Context) (depth : Nat) (head : List Tree) : Production Tree := do
  let filter ← filterClauses ctx .flat depth
  let asof ← clause .asofKw (date ctx)
  if (← peek) = .modeKw then halt ctx .modeInFlatQuery
  else node .flatSelect (head ++ filter ++ asof)

/-- The rest of a query about links after its head. -/
def linkTail (ctx : Context) (depth : Nat) (head : List Tree) : Production Tree := do
  let filter ← filterClauses ctx .link depth
  let (kind, clauses) ← linkClauses ctx
  node kind (head ++ filter ++ clauses)

/-- A query in which parentheses nest up to a depth. -/
def query (ctx : Context) (depth : Nat) : Production Tree := do
  let select ← expect ctx .selectKw .expectedSelect
  let fields ← fieldList ctx
  let origin ← expect ctx .fromKw .expectedFrom
  let head := [.leaf select, fields, .leaf origin]
  match ← eat .workItemsKw with
  | some source => flatTail ctx depth (head ++ [.leaf source])
  | none =>
    match ← eat .workItemLinksKw with
    | some source => linkTail ctx depth (head ++ [.leaf source])
    | none => halt ctx .expectedSource

end Grammar
end WorkItemQuery
