import WorkItemQuery.Select
import WorkItemQuery.Tree.Roles

/-!
# From trees to queries

Each reading follows the roles of a node.  It fails only at a role that has no child; nodes that
pass the shape check and whose tokens carry the kinds of tokens always read.
-/

namespace WorkItemQuery
namespace Tree

/-- The field name of a field node. -/
def readField (tree : Tree) : Except BrokenRole FieldName := do
  let identifier ← tree.requireToken .identifier "identifier"
  return ⟨identifier⟩

/-- The number of a number node. -/
def readNumber (tree : Tree) : Except BrokenRole Number := do
  let digits ← tree.requireToken .digits "digits"
  return ⟨tree.tokenInput? (.single .minus), digits⟩

/-- The literal of a date node. -/
def readDate (tree : Tree) : Except BrokenRole Token := tree.requireToken .string "date string"

/-- The two words of a `CONTAINS WORDS` node. -/
def readContainsWords (tree : Tree) : Except BrokenRole (Token × Token) := do
  let contains ← tree.requireToken .containsKw "contains"
  let words ← tree.requireToken .wordsKw "words"
  return (contains, words)

/-- The term that a tree is, if it is one. -/
def readTerm? : Tree → Option (Except BrokenRole Term)
  | .leaf token =>
    match token.kind with
    | .string => some (.ok (.string token))
    | .variableRef => some (.ok (.variableRef token))
    | .trueKw | .falseKw => some (.ok (.boolean token))
    | _ => none
  | tree@(.node kind _) =>
    match kind with
    | .number => some (.number <$> tree.readNumber)
    | .dateTime => some (.dateTime <$> tree.readDate)
    | .field => some (.field <$> tree.readField)
    | _ => none

/-- The term of a value node. -/
def readTerm (tree : Tree) : Except BrokenRole Term := do
  let term ← tree.require ((tree.input? .valueKinds).bind readTerm?) "value"
  term

/-- The value of a value node. -/
def readValue (tree : Tree) : Except BrokenRole Value := do
  let term ← tree.readTerm
  let offset? ← match tree.tokenInput? .plusMinus, tree.offsetNumber? with
    | some sign, some offset => do
      let number ← offset.readNumber
      pure (some (sign, number))
    | _, _ => pure none
  return ⟨term, offset?⟩

/-- The values of a list of values. -/
def readValues (tree : Tree) : Except BrokenRole (List Value) :=
  (tree.links .valueList).mapM fun link => do
    let item ← link.requirePart .value "value"
    item.readValue

/-- The operator of an operator node. -/
def readOperator (tree : Tree) : Except BrokenRole Operator := do
  let proper ← tree.require (tree.input? .conditionTokens) "condition token"
  return ⟨proper.kind, tree.tokenInput? (.single .everKw), tree.tokenInput? (.single .notKw)⟩

/-- The side of a link that a side node stands for. -/
def readSide (tree : Tree) : Except BrokenRole Side :=
  if tree.kind = .sourceSide then do
    let word ← tree.requireToken .sourceKw "source"
    return ⟨.source, word, tree.span?⟩
  else do
    let word ← tree.requireToken .targetKw "target"
    return ⟨.target, word, tree.span?⟩

/-- The side of a link that a node names, where the dialect has sides. -/
def readSideOf (form : Dialect) (tree : Tree) : Except BrokenRole (Option Side) :=
  if form.hasSides then
    match tree.nodeInput? .sideNode with
    | none => .ok none
    | some side => some <$> side.readSide
  else .ok none

/-- Which parts the children of a condition have. -/
def conditionParts (form : Dialect) (tree : Tree) : ConditionParts where
  expression := (tree.part? form.expression).isSome
  field := (tree.part? .field).isSome
  operator := (tree.part? .operator).isSome
  membership := (tree.tokenInput? (.single .inKw)).isSome
  value := (tree.part? .value).isSome
  negation := (tree.tokenInput? (.single .notKw)).isSome
  valueList := (tree.part? .valueList).isSome

/-- The comparison of a condition without a nested expression.  All its parts are looked up before
any of them is read. -/
def readLeaf (form : Dialect) (tree : Tree) : Except BrokenRole Condition := do
  let name ← tree.requirePart .field "field"
  let negation? := tree.tokenInput? (.single .notKw)
  let parts := tree.conditionParts form
  match tree.part? .operator, tree.part? .value with
  | some operator, some value => do
    let side? ← tree.readSideOf form
    let field ← name.readField
    let operator ← operator.readOperator
    let value ← value.readValue
    return .leaf parts side? ⟨field, negation?, .compare operator value⟩
  | _, _ => do
    let word ← tree.requireToken .inKw "IN"
    let list ← tree.requirePart .valueList "value list"
    let side? ← tree.readSideOf form
    let field ← name.readField
    let values ← list.readValues
    return .leaf parts side? ⟨field, negation?, .member word values⟩

/-- The chain of conditions of an expression node. -/
def readExpression (form : Dialect) (tree : Tree) : Except BrokenRole Expression :=
  match _hcondition : tree.part? form.condition with
  | none => .error ⟨tree.kind, "condition"⟩
  | some child =>
    let condition := match _hinner : child.part? form.expression with
      | some inner => .nested (child.conditionParts form) <$> readExpression form inner
      | none => child.readLeaf form
    let rest := match _hrest : tree.part? form.expression with
      | some rest => readExpression form rest
      | none => .ok .done
    return .link (tree.tokenInput? .everNot) (← condition) (tree.tokenInput? .andOr) (← rest)
termination_by tree.size
decreasing_by
  · exact Nat.lt_trans (size_part?_lt _hinner) (size_part?_lt _hcondition)
  · exact size_part?_lt _hrest

/-- The condition of a condition node. -/
def readCondition (form : Dialect) (tree : Tree) : Except BrokenRole Condition :=
  match tree.part? form.expression with
  | some inner => do
    let inner ← inner.readExpression form
    return .nested (tree.conditionParts form) inner
  | none => tree.readLeaf form

/-- The fields of a list of fields. -/
def readFields (tree : Tree) : Except BrokenRole (List FieldName) :=
  (tree.links .fieldList).mapM fun link => do
    let item ← link.requirePart .field "field"
    item.readField

/-- The sort keys of a list of sort keys. -/
def readOrder (form : Dialect) (tree : Tree) : Except BrokenRole (List SortKey) :=
  (tree.links form.order).mapM fun link => do
    let side? ← link.readSideOf form
    let item ← link.requirePart .field "field"
    let field ← item.readField
    return ⟨side?, field, link.tokenInput? .ascDesc⟩

/-- Reads a child if there is one. -/
def readPart? {α : Type} (tree : Tree) (kind : Kind) (read : Tree → Except BrokenRole α) :
    Except BrokenRole (Option α) :=
  match tree.part? kind with
  | none => .ok none
  | some child => some <$> read child

/-- The query of a node, given what it is about. -/
def readSelectAs (scope : Scope) (form : Dialect) (tree : Tree) : Except BrokenRole Select := do
  let list ← tree.requirePart .fieldList "field list"
  let fields ← list.readFields
  let filter? ← tree.readPart? form.expression (readExpression form)
  let order? ← tree.readPart? form.order (readOrder form)
  let asOf? ← tree.readPart? .dateTime readDate
  return ⟨scope, fields, filter?, order?, asOf?⟩

/-- The query of a node, if its kind is one of a query. -/
def readSelect? (tree : Tree) : Option (Except BrokenRole Select) :=
  match tree.node?.map kind with
  | some .flatSelect => some (tree.readSelectAs .flat .flat)
  | some .oneHopSelect => some (tree.readSelectAs (.oneHop (tree.tokenInput? .linkMode)) .link)
  | some .recursiveSelect =>
    some (tree.readSelectAs
      (.recursive (tree.tokenInput? (.single .recursiveKw))
        (tree.tokenInput? (.single .matchingChildrenKw)))
      .link)
  | _ => none

end Tree
end WorkItemQuery
