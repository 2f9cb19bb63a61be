import WorkItemQuery.Tree

/-!
# Shapes of nodes

A node is built only from children that can play the roles which its kind requires.  A condition
is either a nested expression or one complete comparison, never both and never neither.
-/

namespace WorkItemQuery

/-- Why children cannot form a node of a kind. -/
inductive ShapeError where
  /-- The kind is not one of a node. -/
  | notANodeKind (kind : Kind)
  /-- No child plays a role that the kind requires. -/
  | missingRole (kind : Kind) (role : String)
  /-- The condition has both a nested expression and a comparison, or two comparisons. -/
  | ambiguousCondition (kind : Kind)
  /-- The condition has neither a nested expression nor a complete comparison. -/
  | emptyCondition (kind : Kind)
deriving DecidableEq, Repr

/-- The error in words. -/
def ShapeError.message : ShapeError → String
  | .notANodeKind kind => "`" ++ kind.name ++ "` is not a node kind"
  | .missingRole kind role => "`" ++ kind.name ++ "` is missing its " ++ role
  | .ambiguousCondition kind =>
    "`" ++ kind.name ++ "` has both a nested expression and a comparison"
  | .emptyCondition kind =>
    "`" ++ kind.name ++ "` has neither a nested expression nor a complete comparison"

namespace Tree

/-- The number behind the sign of an offset.  It is the second number of the node if the term
itself is a number. -/
def offsetNumber? (tree : Tree) : Option Tree :=
  match tree.input? .plusMinus with
  | none => none
  | some _ =>
    let termIsNumber := (tree.input? .valueKinds).any (·.kind == .number)
    tree.nthNode? (.single .number) (if termIsNumber then 2 else 1)

/-- The parts of a comparison. -/
def comparisonParts : KindSet := .ofList [.field, .operator, .value, .inKw, .valueList]

/-- A condition has exactly one of a nested expression and a complete comparison, and a nested
expression stands alone. -/
def checkCondition (tree : Tree) (nested : Kind) (parts : KindSet) : Except ShapeError Unit :=
  if tree.has (.single nested) then
    if tree.has parts then .error (.ambiguousCondition tree.kind) else .ok ()
  else
    let compare := tree.has (.single .operator) && tree.has (.single .value)
    let member := tree.has (.single .inKw) && tree.has (.single .valueList)
    match tree.has (.single .field), compare, member with
    | true, true, false | true, false, true => .ok ()
    | true, true, true => .error (.ambiguousCondition tree.kind)
    | _, _, _ => .error (.emptyCondition tree.kind)

/-- Some child plays a role. -/
def checkRole (tree : Tree) (kinds : KindSet) (role : String) : Except ShapeError Unit :=
  if tree.has kinds then .ok () else .error (.missingRole tree.kind role)

/-- The children of a node can play the roles that its kind requires. -/
def checkShape (tree : Tree) : Except ShapeError Unit :=
  match tree.kind with
  | .number => tree.checkRole (.single .digits) "digits"
  | .field => tree.checkRole (.single .identifier) "identifier"
  | .containsWords => do
    tree.checkRole (.single .containsKw) "contains"
    tree.checkRole (.single .wordsKw) "words"
  | .inGroup => .ok ()
  | .dateTime => tree.checkRole (.single .string) "date string"
  | .fieldList | .orderList | .linkOrderList => tree.checkRole (.single .field) "field"
  | .valueList => tree.checkRole (.single .value) "value"
  | .operator => tree.checkRole .conditionTokens "condition token"
  | .value => do
    tree.checkRole .valueKinds "value"
    if tree.has .plusMinus && tree.offsetNumber?.isNone then
      .error (.missingRole tree.kind "offset number")
  | .logicalExpression => tree.checkRole (.single .condition) "condition"
  | .linkExpression => tree.checkRole (.single .linkCondition) "condition"
  | .condition => tree.checkCondition .logicalExpression comparisonParts
  | .linkCondition => tree.checkCondition .linkExpression (comparisonParts.union .sideNode)
  | .flatSelect | .oneHopSelect | .recursiveSelect =>
    tree.checkRole (.single .fieldList) "field list"
  | .sourceSide => tree.checkRole (.single .sourceKw) "source"
  | .targetSide => tree.checkRole (.single .targetKw) "target"
  | kind => .error (.notANodeKind kind)

/-- The node of a kind over children, if they can play its roles. -/
def build (kind : Kind) (children : List Tree) : Except ShapeError Tree := do
  (node kind children).checkShape
  return node kind children

end Tree
end WorkItemQuery
